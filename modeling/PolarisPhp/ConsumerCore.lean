/-
`consumer_core.hpp`: the discovery operations and the report of a call's
result. The four discovery requests are decoded by four bodies written out
separately; they are kept apart here, lookup by lookup.
-/
import PolarisPhp.ProviderCore

namespace PolarisPhp

open Bytes Decimal

def convertToLoadBalanceType (val : Bytes) : LoadBalanceType :=
  if val = lit "weightedRandom" then kLoadBalanceTypeWeightedRandom
  else if val = lit "ringHash" then kLoadBalanceTypeRingHash
  else if val = lit "maglev" then kLoadBalanceTypeMaglevHash
  else if val = lit "l5cst" then kLoadBalanceTypeL5CstHash
  else if val = lit "simpleHash" then kLoadBalanceTypeSimpleHash
  else if val = lit "cMurmurHash" then kLoadBalanceTypeCMurmurHash
  else if val = lit "localityAware" then kLoadBalanceTypeLocalityAware
  else if val = lit "default" then kLoadBalanceTypeDefaultConfig
  else kLoadBalanceTypeWeightedRandom

def convertToCallRetStatus (val : Bytes) : CallRetStatus :=
  if val = lit "error" then .kCallRetError
  else if val = lit "timeout" then .kCallRetTimeout
  else .kCallRetOk

def convertWeigthTypeForString : WeightType → Bytes
  | .kStaticWeightType => lit "static"
  | .kDynamicWeightType => lit "dynamic"

def convertToMetadataFailoverType (val : Bytes) : MetadataFailoverType :=
  if val = lit "notKey" then .kMetadataFailoverNotKey
  else if val = lit "all" then .kMetadataFailoverAll
  else .kMetadataFailoverNone

/-! ## Replies -/

def convertInstanceToArray (inst : Instance) : HashTable :=
  let retVal : HashTable := Table.empty
  let retVal := addAssocString retVal Key.host inst.host
  let retVal := addAssocString retVal Key.containerName inst.containerName
  let retVal := addAssocString retVal Key.internalSetName inst.internalSetName
  let retVal := addAssocString retVal Key.logicSet inst.logicSet
  let retVal := addAssocString retVal Key.region inst.region
  let retVal := addAssocString retVal Key.zone inst.zone
  let retVal := addAssocString retVal Key.campus inst.campus
  let retVal := addAssocString retVal Key.vpcID inst.vpcId
  let retVal := addAssocString retVal Key.protocol inst.protocol
  let retVal := addAssocString retVal Key.version inst.version
  let retVal := addAssocLong retVal Key.port inst.port.toInt64
  let retVal := addAssocLong retVal Key.weight inst.weight.toUInt64.toInt64
  let retVal := addAssocLong retVal Key.priority inst.priority.toInt64
  let retVal := addAssocLong retVal Key.dynamicWeight inst.dynamicWeight.toUInt64.toInt64
  let retVal := addAssocLong retVal Key.hashKey inst.hash.toInt64
  let retVal := addAssocLong retVal Key.localityAwareInfo inst.localityAwareInfo.toInt64
  let retVal := addAssocBool retVal Key.healthy inst.healthy
  let retVal := addAssocBool retVal Key.isolate inst.isolate
  addAssocZval retVal Key.metadata (.array (transferMapToArray inst.metadata))

def convertServiceResponseToZval (resp : InstancesResponse) : HashTable :=
  let arr : HashTable := Table.empty
  let arr := addAssocLong arr Key.flowId resp.flowId.toInt64
  let arr := addAssocString arr Key.service resp.serviceName
  let arr := addAssocString arr Key.namespace_ resp.serviceNamespace
  let arr := addAssocString arr Key.revision resp.revision
  let arr := addAssocString arr Key.weightTypeStr (convertWeigthTypeForString resp.weightType)
  let arr := addAssocZval arr Key.metadata (.array (transferMapToArray resp.metadata))
  let arr := addAssocZval arr Key.serviceSubSet (.array (transferMapToArray resp.subset))
  let instancesVal := resp.instances.foldl
    (fun val inst => addNextIndexZval val (.array (convertInstanceToArray inst))) Table.empty
  addAssocZval arr Key.instances (.array instancesVal)

/-- What the three queries answer. On success they read `resp` without a test. -/
def instancesReply (sdk : Sdk) (returnVal : HashTable) (o : Outcome InstancesResponse) : Except Stop HashTable :=
  if o.code = .kReturnOk then
    match o.resp with
    | .response resp =>
      .ok (addCode sdk o.code (addAssocZval returnVal Key.getResponse (.array (convertServiceResponseToZval resp))))
    | .nullptr => .error .nullPtr
    | .untouched => .error .uninit
  else .ok (addCode sdk o.code returnVal)

/-! ## The source of a request -/

/-- `if (sourceServiceVal != NULL) … req.SetSourceService(srcInfo)`; `srcmeta`
is the lookup of the source's metadata. -/
def transferSource (z : Zend) (sourceServiceVal : Option Zval) (srcmeta : HashTable → Option Zval) :
    Except Stop (Option ServiceInfo) :=
  match sourceServiceVal with
  | none => pure none
  | some _ => do
    let sourceHt ← zArrvalP sourceServiceVal
    let sourceService ← transferToStdMap z sourceHt
    let sourceMetadata ← transferIf z (srcmeta sourceHt) (srcmeta sourceHt)
    return some {
      service_key_ := ⟨sourceService.sub Key.namespace_, sourceService.sub Key.service⟩
      metadata_ := sourceMetadata
    }

/-! ## InitService -/

def initServiceRequestOf (params matadata labels : StdMap) (srcInfo : Option ServiceInfo) (timeout flowId : UInt64) :
    GetOneInstanceRequest where
  serviceKey := ⟨params.sub Key.namespace_, params.sub Key.service⟩
  flowId := some flowId
  timeout := some timeout
  canary := params.sub Key.canary
  -- the name of the entry, not `params[SourceSetName]`
  sourceSetName := Key.sourceSetName
  ignoreHalfOpen := isTrue (params.sub Key.ignoreHalfOpen)
  hashString := params.sub Key.hashString
  hashKey := (atol (params.sub Key.hashKey)).toUInt64
  replicateIndex := atoi (params.sub Key.replicateIndex)
  backupInstanceNum := (atoi (params.sub Key.backupInstanceNum)).toUInt32
  loadBalanceType := convertToLoadBalanceType (params.sub Key.loadBalanceTypeStr)
  metadataFailover := convertToMetadataFailoverType (params.sub Key.metadataFailoverTypeStr)
  metadata := matadata
  labels := labels
  sourceService := srcInfo

/-- The request `DoInitService` builds. -/
def initServiceRequest (z : Zend) (reqVal : Zval) (timeout flowId : UInt64) :
    Except Stop GetOneInstanceRequest := do
  let ht ← zArrvalP (some reqVal)
  let params ← transferToStdMap z ht
  let metadataVal := findEntry z ht Key.metadata
  let matadata ← transferIf z metadataVal metadataVal
  let labelsVal := findEntry z ht Key.labels
  -- the labels are read from `metadataVal`
  let labels ← transferIf z labelsVal metadataVal
  let sourceServiceVal := findEntry z ht Key.sourceService
  let srcInfo ← transferSource z sourceServiceVal fun sourceHt => findEntry z sourceHt Key.metadata
  return initServiceRequestOf params matadata labels srcInfo timeout flowId

def doInitService (z : Zend) (sdk : Sdk) (reqVal : Zval) (timeout flowId : UInt64) (returnVal : HashTable) :
    Exec HashTable :=
  invoke (initServiceRequest z reqVal timeout flowId) .initService (fun _ => none)
    fun req => .ok (addCode sdk (sdk.initService req) returnVal)

/-! ## GetOneInstance -/

def getOneInstanceRequestOf (params matadata labels : StdMap) (srcInfo : Option ServiceInfo) (timeout flowId : UInt64) :
    GetOneInstanceRequest where
  serviceKey := ⟨params.sub Key.namespace_, params.sub Key.service⟩
  flowId := some flowId
  timeout := some timeout
  canary := params.sub Key.canary
  -- the name of the entry, not `params[SourceSetName]`
  sourceSetName := Key.sourceSetName
  ignoreHalfOpen := isTrue (params.sub Key.ignoreHalfOpen)
  hashString := params.sub Key.hashString
  hashKey := (atol (params.sub Key.hashKey)).toUInt64
  replicateIndex := atoi (params.sub Key.replicateIndex)
  backupInstanceNum := (atoi (params.sub Key.backupInstanceNum)).toUInt32
  loadBalanceType := convertToLoadBalanceType (params.sub Key.loadBalanceTypeStr)
  metadataFailover := convertToMetadataFailoverType (params.sub Key.metadataFailoverTypeStr)
  metadata := matadata
  labels := labels
  sourceService := srcInfo

/-- The request `DoGetOneInstance` builds. -/
def getOneInstanceRequest (z : Zend) (reqVal : Zval) (timeout flowId : UInt64) :
    Except Stop GetOneInstanceRequest := do
  let ht ← zArrvalP (some reqVal)
  let params ← transferToStdMap z ht
  let metadataVal := findEntry z ht Key.metadata
  let matadata ← transferIf z metadataVal metadataVal
  let labelsVal := findEntry z ht Key.labels
  -- the labels are read from `metadataVal`
  let labels ← transferIf z labelsVal metadataVal
  let sourceServiceVal := findEntry z ht Key.sourceService
  let srcInfo ← transferSource z sourceServiceVal fun sourceHt => findEntry z sourceHt Key.metadata
  return getOneInstanceRequestOf params matadata labels srcInfo timeout flowId

def doGetOneInstance (z : Zend) (sdk : Sdk) (reqVal : Zval) (timeout flowId : UInt64) (returnVal : HashTable) :
    Exec HashTable :=
  invoke (getOneInstanceRequest z reqVal timeout flowId) .getOneInstance
    (fun req => (sdk.getOneInstance req).resp.object .instancesResponse)
    fun req => instancesReply sdk returnVal (sdk.getOneInstance req)

/-! ## GetInstances -/

def getInstancesRequestOf (params matadata : StdMap) (srcInfo : Option ServiceInfo) (timeout flowId : UInt64) :
    GetInstancesRequest where
  serviceKey := ⟨params.sub Key.namespace_, params.sub Key.service⟩
  flowId := some flowId
  timeout := some timeout
  includeUnhealthyInstances := isTrue (params.sub Key.includeUnhealthyInstances)
  includeCircuitBreakInstances := isTrue (params.sub Key.includeCircuitBreakInstances)
  skipRouteFilter := isTrue (params.sub Key.skipRouteFilter)
  canary := params.sub Key.canary
  sourceSetName := params.sub Key.sourceSetName
  metadataFailover := convertToMetadataFailoverType (params.sub Key.metadataFailoverTypeStr)
  metadata := matadata
  sourceService := srcInfo

/-- The request `DoGetInstances` builds. -/
def getInstancesRequest (z : Zend) (reqVal : Zval) (timeout flowId : UInt64) :
    Except Stop GetInstancesRequest := do
  let ht ← zArrvalP (some reqVal)
  let params ← transferToStdMap z ht
  let metadataVal := findEntry z ht Key.metadata
  let matadata ← transferIf z metadataVal metadataVal
  let sourceServiceVal := findEntry z ht Key.sourceService
  -- the source's metadata are looked up in `reqVal`
  let srcInfo ← transferSource z sourceServiceVal fun _ => findEntry z ht Key.metadata
  return getInstancesRequestOf params matadata srcInfo timeout flowId

def doGetInstances (z : Zend) (sdk : Sdk) (reqVal : Zval) (timeout flowId : UInt64) (returnVal : HashTable) :
    Exec HashTable :=
  invoke (getInstancesRequest z reqVal timeout flowId) .getInstances
    (fun req => (sdk.getInstances req).resp.object .instancesResponse)
    fun req => instancesReply sdk returnVal (sdk.getInstances req)

/-! ## GetAllInstances -/

def getAllInstancesRequestOf (params matadata : StdMap) (srcInfo : Option ServiceInfo) (timeout flowId : UInt64) :
    GetInstancesRequest where
  serviceKey := ⟨params.sub Key.namespace_, params.sub Key.service⟩
  flowId := some flowId
  timeout := some timeout
  includeUnhealthyInstances := isTrue (params.sub Key.includeUnhealthyInstances)
  includeCircuitBreakInstances := isTrue (params.sub Key.includeCircuitBreakInstances)
  skipRouteFilter := isTrue (params.sub Key.skipRouteFilter)
  canary := params.sub Key.canary
  sourceSetName := params.sub Key.sourceSetName
  metadataFailover := convertToMetadataFailoverType (params.sub Key.metadataFailoverTypeStr)
  metadata := matadata
  sourceService := srcInfo

/-- The request `DoGetAllInstances` builds. -/
def getAllInstancesRequest (z : Zend) (reqVal : Zval) (timeout flowId : UInt64) :
    Except Stop GetInstancesRequest := do
  let ht ← zArrvalP (some reqVal)
  let params ← transferToStdMap z ht
  let metadataVal := findEntry z ht Key.metadata
  let matadata ← transferIf z metadataVal metadataVal
  let sourceServiceVal := findEntry z ht Key.sourceService
  let srcInfo ← transferSource z sourceServiceVal fun sourceHt => findEntry z sourceHt Key.metadata
  return getAllInstancesRequestOf params matadata srcInfo timeout flowId

def doGetAllInstances (z : Zend) (sdk : Sdk) (reqVal : Zval) (timeout flowId : UInt64) (returnVal : HashTable) :
    Exec HashTable :=
  invoke (getAllInstancesRequest z reqVal timeout flowId) .getAllInstances
    (fun req => (sdk.getAllInstances req).resp.object .instancesResponse)
    fun req => instancesReply sdk returnVal (sdk.getAllInstances req)

/-! ## UpdateServiceCallResult -/

def serviceCallResultOf (params subset labels : StdMap) : ServiceCallResult where
  serviceName := params.sub Key.service
  serviceNamespace := params.sub Key.namespace_
  instanceId := params.sub Key.instanceID
  host := params.sub Key.host
  port := atoi (params.sub Key.port)
  delay := (atol (params.sub Key.delay)).toUInt64
  localityAwareInfo := (atol (params.sub Key.localityAwareInfo)).toUInt64
  retStatus := convertToCallRetStatus (params.sub Key.callRetStatus)
  retCode := atoi (params.sub Key.callRetCode)
  subset := subset
  labels := labels

/-- The report `DoUpdateServiceCallResult` builds. -/
def serviceCallResult (z : Zend) (reqVal : Zval) : Except Stop ServiceCallResult := do
  let ht ← zArrvalP (some reqVal)
  let params ← transferToStdMap z ht
  let subsetVal := findEntry z ht Key.serviceSubSet
  let subset ← transferIf z subsetVal subsetVal
  let labelsVal := findEntry z ht Key.labels
  let labels ← transferIf z labelsVal labelsVal
  let result := serviceCallResultOf params subset labels
  let sourceVal := findEntry z ht Key.sourceService
  match sourceVal with
  | none => return result
  | some _ =>
    let sourceSvr ← transferToStdMap z (← zArrvalP sourceVal)
    return { result with source := ⟨sourceSvr.sub Key.namespace_, sourceSvr.sub Key.service⟩ }

/-- The timeout and the flow id are not used. -/
def doUpdateServiceCallResult (z : Zend) (sdk : Sdk) (reqVal : Zval) (_timeout _flowId : UInt64)
    (returnVal : HashTable) : Exec HashTable :=
  invoke (serviceCallResult z reqVal) .updateServiceCallResult (fun _ => none)
    fun req => .ok (addCode sdk (sdk.updateServiceCallResult req) returnVal)

end PolarisPhp
