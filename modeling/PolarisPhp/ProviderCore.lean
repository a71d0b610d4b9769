/-
`provider_core.hpp`: registration, deregistration and heartbeat of an
instance.
-/
import PolarisPhp.Common
import PolarisPhp.Utils
import PolarisPhp.World

namespace PolarisPhp

open Bytes Decimal

/-- `string("true").compare(val) == 0`. -/
def isTrue (val : Bytes) : Bool := val == lit "true"

/-- The entries every reply ends with. -/
def addCode (sdk : Sdk) (code : ReturnCode) (returnVal : HashTable) : HashTable :=
  addAssocStringl (addAssocLong returnVal Key.code code.value) Key.errMsg (sdk.returnCodeToMsg code)

/-- The token of a request, or the one its service stands in with. -/
def tokenOf (params : StdMap) : Bytes :=
  let tmp := params.sub Key.token
  if tmp.isEmpty then lit "polaris_php_sdk__" ++ params.sub Key.service else tmp

/-! ## Register -/

def registerRequestOf (params metadata : StdMap) (timeout flowId : UInt64) : InstanceRegisterRequest :=
  let port := atoi (params.sub Key.port)
  let weight := atoi (params.sub Key.weight)
  let priority := atoi (params.sub Key.priority)
  let healthcheck := isTrue (params.sub Key.heartbeatFlag)
  let ttl := if healthcheck then atoi (params.sub Key.ttl) else 0
  { serviceNamespace := params.sub Key.namespace_
    serviceName := params.sub Key.service
    serviceToken := tokenOf params
    host := params.sub Key.host
    port := port
    timeout := some timeout
    protocol := params.sub Key.protocol
    vpcId := params.sub Key.vpcID
    version := params.sub Key.version
    metadata := metadata
    healthCheckFlag := healthcheck
    ttl := ttl
    weight := weight
    flowId := some flowId
    priority := priority }

/-- The request `RegisterInstance` builds. -/
def registerRequest (z : Zend) (reqVal : Zval) (timeout flowId : UInt64) :
    Except Stop InstanceRegisterRequest := do
  let ht ← zArrvalP (some reqVal)
  let params ← transferToStdMap z ht
  let metadataVal := findEntry z ht Key.metadata
  let metadata ← transferIf z metadataVal metadataVal
  return registerRequestOf params metadata timeout flowId

def registerReply (sdk : Sdk) (returnVal : HashTable) (req : InstanceRegisterRequest) : HashTable :=
  let (code, instanceId) := sdk.register req
  addAssocStringl (addCode sdk code returnVal) Key.instanceID instanceId

def registerInstance (z : Zend) (sdk : Sdk) (reqVal : Zval) (timeout flowId : UInt64) (returnVal : HashTable) :
    Exec HashTable :=
  invoke (registerRequest z reqVal timeout flowId) .register (fun _ => none)
    fun req => .ok (registerReply sdk returnVal req)

/-! ## Deregister -/

def deregisterRequestOf (params : StdMap) (timeout flowId : UInt64) : InstanceDeregisterRequest where
  serviceNamespace := params.sub Key.namespace_
  serviceName := params.sub Key.service
  serviceToken := tokenOf params
  host := params.sub Key.host
  port := atoi (params.sub Key.port)
  timeout := some timeout
  flowId := some flowId
  vpcId := params.sub Key.vpcID

/-- The request `DeregisterInstance` builds. -/
def deregisterRequest (z : Zend) (reqVal : Zval) (timeout flowId : UInt64) :
    Except Stop InstanceDeregisterRequest := do
  let ht ← zArrvalP (some reqVal)
  let params ← transferToStdMap z ht
  return deregisterRequestOf params timeout flowId

def deregisterInstance (z : Zend) (sdk : Sdk) (reqVal : Zval) (timeout flowId : UInt64) (returnVal : HashTable) :
    Exec HashTable :=
  invoke (deregisterRequest z reqVal timeout flowId) .deregister (fun _ => none)
    fun req => .ok (addCode sdk (sdk.deregister req) returnVal)

/-! ## Heartbeat -/

def heartbeatRequestOf (params : StdMap) : InstanceHeartbeatRequest where
  serviceNamespace := params.sub Key.namespace_
  serviceName := params.sub Key.service
  serviceToken := tokenOf params
  host := params.sub Key.host
  port := atoi (params.sub Key.port)
  vpcId := params.sub Key.vpcID

/-- The request `DoHeartbeat` builds. -/
def heartbeatRequest (z : Zend) (reqVal : Zval) : Except Stop InstanceHeartbeatRequest := do
  let ht ← zArrvalP (some reqVal)
  let params ← transferToStdMap z ht
  return heartbeatRequestOf params

def doHeartbeat (z : Zend) (sdk : Sdk) (reqVal : Zval) (returnVal : HashTable) : Exec HashTable :=
  invoke (heartbeatRequest z reqVal) .heartbeat (fun _ => none)
    fun req => .ok (addCode sdk (sdk.heartbeat req) returnVal)

end PolarisPhp
