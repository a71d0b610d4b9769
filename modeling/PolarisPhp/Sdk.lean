/-
The SDK as its headers declare it: the requests with the defaults their
comments state, the replies, and the answers the SDK may give, which stay
parameters. A request is the record of what its setters were given; a
setter that is not called leaves the field at its default.
-/
import Mathlib.Data.List.Nodup
import PolarisPhp.Lib.Bytes

namespace PolarisPhp

open Bytes

/-- `std::map<std::string, std::string>`. -/
abbrev StdMap := Std.ExtTreeMap Bytes Bytes compare

/-- `operator[]`: a key that is not there reads as the empty string. -/
def StdMap.sub (m : StdMap) (k : Bytes) : Bytes := m.getD k []

inductive ReturnCode where
  | kReturnOk
  | kReturnUnknownError
  | kReturnInvalidArgument
  | kReturnInvalidConfig
  | kReturnPluginError
  | kReturnTimeout
  | kReturnInvalidState
  | kReturnServerError
  | kReturnNetworkFailed
  | kReturnInstanceNotFound
  | kReturnInvalidRouteRule
  | kReturnRouteRuleNotMatch
  | kReturnServiceNotFound
  | kReturnExistedResource
  | kReturnUnauthorized
  | kReturnHealthyCheckDisable
  | kRetrunRateLimit
  | kReturnNotInit
  | kReturnResourceNotFound
  | kReturnServerUnknownError
  | kReturnSystemServiceNotConfigured
  deriving DecidableEq, Repr

def ReturnCode.value : ReturnCode → Int64
  | .kReturnOk => 0
  | .kReturnUnknownError => 1000
  | .kReturnInvalidArgument => 1001
  | .kReturnInvalidConfig => 1002
  | .kReturnPluginError => 1003
  | .kReturnTimeout => 1004
  | .kReturnInvalidState => 1005
  | .kReturnServerError => 1006
  | .kReturnNetworkFailed => 1007
  | .kReturnInstanceNotFound => 1010
  | .kReturnInvalidRouteRule => 1011
  | .kReturnRouteRuleNotMatch => 1012
  | .kReturnServiceNotFound => 1015
  | .kReturnExistedResource => 1200
  | .kReturnUnauthorized => 1201
  | .kReturnHealthyCheckDisable => 1202
  | .kRetrunRateLimit => 1203
  | .kReturnNotInit => 1288
  | .kReturnResourceNotFound => 1289
  | .kReturnServerUnknownError => 1299
  | .kReturnSystemServiceNotConfigured => 1300

structure ServiceKey where
  namespace_ : Bytes
  name_ : Bytes
  deriving DecidableEq

structure ServiceInfo where
  service_key_ : ServiceKey
  metadata_ : StdMap
  deriving DecidableEq

/-! ## Load balancing and failover -/

/-- A `std::string` in the SDK. -/
abbrev LoadBalanceType := Bytes

def kLoadBalanceTypeWeightedRandom : LoadBalanceType := lit "weightedRandom"
def kLoadBalanceTypeRingHash : LoadBalanceType := lit "ringHash"
def kLoadBalanceTypeMaglevHash : LoadBalanceType := lit "maglev"
def kLoadBalanceTypeL5CstHash : LoadBalanceType := lit "l5cst"
def kLoadBalanceTypeSimpleHash : LoadBalanceType := lit "simpleHash"
def kLoadBalanceTypeCMurmurHash : LoadBalanceType := lit "cMurmurHash"
def kLoadBalanceTypeLocalityAware : LoadBalanceType := lit "localityAware"
def kLoadBalanceTypeDefaultConfig : LoadBalanceType := lit "default"

inductive MetadataFailoverType where
  | kMetadataFailoverNone
  | kMetadataFailoverAll
  | kMetadataFailoverNotKey
  deriving DecidableEq, Repr

inductive CallRetStatus where
  | kCallRetOk
  | kCallRetTimeout
  | kCallRetError
  deriving DecidableEq, Repr

inductive WeightType where
  | kStaticWeightType
  | kDynamicWeightType
  deriving DecidableEq, Repr

/-! ## Provider requests -/

structure InstanceRegisterRequest where
  serviceNamespace : Bytes
  serviceName : Bytes
  serviceToken : Bytes
  host : Bytes
  port : Int32
  timeout : Option UInt64 := none
  vpcId : Bytes := []
  protocol : Bytes := []
  weight : Int32 := 100
  priority : Int32 := 0
  version : Bytes := []
  metadata : StdMap := ∅
  healthCheckFlag : Bool := false
  ttl : Int32 := 5
  flowId : Option UInt64 := none
  deriving DecidableEq

structure InstanceDeregisterRequest where
  serviceNamespace : Bytes
  serviceName : Bytes
  serviceToken : Bytes
  host : Bytes
  port : Int32
  timeout : Option UInt64 := none
  vpcId : Bytes := []
  flowId : Option UInt64 := none
  deriving DecidableEq

structure InstanceHeartbeatRequest where
  serviceNamespace : Bytes
  serviceName : Bytes
  serviceToken : Bytes
  host : Bytes
  port : Int32
  vpcId : Bytes := []
  deriving DecidableEq

/-! ## Consumer requests -/

structure GetOneInstanceRequest where
  serviceKey : ServiceKey
  hashKey : UInt64 := 0
  hashString : Bytes := []
  ignoreHalfOpen : Bool := false
  sourceService : Option ServiceInfo := none
  sourceSetName : Bytes := []
  canary : Bytes := []
  flowId : Option UInt64 := none
  timeout : Option UInt64 := none
  labels : StdMap := ∅
  metadata : StdMap := ∅
  metadataFailover : MetadataFailoverType := .kMetadataFailoverNone
  loadBalanceType : LoadBalanceType := kLoadBalanceTypeDefaultConfig
  backupInstanceNum : UInt32 := 0
  replicateIndex : Int32 := 0
  deriving DecidableEq

structure GetInstancesRequest where
  serviceKey : ServiceKey
  includeUnhealthyInstances : Bool := false
  includeCircuitBreakInstances : Bool := false
  skipRouteFilter : Bool := false
  sourceService : Option ServiceInfo := none
  sourceSetName : Bytes := []
  canary : Bytes := []
  metadata : StdMap := ∅
  metadataFailover : MetadataFailoverType := .kMetadataFailoverNone
  flowId : Option UInt64 := none
  timeout : Option UInt64 := none
  deriving DecidableEq

structure ServiceCallResult where
  serviceName : Bytes := []
  serviceNamespace : Bytes := []
  instanceId : Bytes := []
  host : Bytes := []
  port : Int32 := 0
  retStatus : CallRetStatus := .kCallRetOk
  retCode : Int32 := 0
  delay : UInt64 := 0
  source : ServiceKey := ⟨[], []⟩
  subset : StdMap := ∅
  labels : StdMap := ∅
  localityAwareInfo : UInt64 := 0
  deriving DecidableEq

/-! ## Limit requests -/

structure QuotaRequest where
  serviceNamespace : Bytes := []
  serviceName : Bytes := []
  labels : StdMap := ∅
  acquireAmount : Int32 := 1
  subset : StdMap := ∅
  deriving DecidableEq

inductive LimitCallResultType where
  | kLimitCallResultLimited
  | kLimitCallResultFailed
  | kLimitCallResultOk
  deriving DecidableEq, Repr

structure LimitCallResult where
  serviceNamespace : Bytes
  serviceName : Bytes
  subset : StdMap
  labels : StdMap
  responseResult : LimitCallResultType
  responseTime : UInt64
  responseCode : Int32
  deriving DecidableEq

/-! ## Replies -/

structure Instance where
  id : Bytes
  host : Bytes
  port : Int32
  vpcId : Bytes
  weight : UInt32
  protocol : Bytes
  version : Bytes
  priority : Int32
  healthy : Bool
  isolate : Bool
  metadata : StdMap
  containerName : Bytes
  internalSetName : Bytes
  logicSet : Bytes
  dynamicWeight : UInt32
  region : Bytes
  zone : Bytes
  campus : Bytes
  hash : UInt64
  localityAwareInfo : UInt64
  deriving DecidableEq

structure InstancesResponse where
  flowId : UInt64
  serviceName : Bytes
  serviceNamespace : Bytes
  metadata : StdMap
  weightType : WeightType
  revision : Bytes
  instances : List Instance
  subset : StdMap
  deriving DecidableEq

inductive QuotaResultCode where
  | kQuotaResultOk
  | kQuotaResultLimited
  | kQuotaResultWait
  deriving DecidableEq, Repr

def QuotaResultCode.value : QuotaResultCode → Int64
  | .kQuotaResultOk => 0
  | .kQuotaResultLimited => 1
  | .kQuotaResultWait => 2

structure QuotaResultInfo where
  left_quota_ : Int64
  all_quota_ : Int64
  duration_ : UInt64
  is_degrade_ : Bool
  deriving DecidableEq

structure QuotaResponse where
  resultCode : QuotaResultCode
  quotaResultInfo : QuotaResultInfo
  waitTime : UInt64
  deriving DecidableEq

/-! ## Calls and answers -/

/-- What the extension hands the SDK of a script's: configuration and requests.
The level of the log, and the contexts and APIs it has made, are none of these. -/
inductive SdkCall where
  | setLogDir (dir : Bytes)
  | createFromFile (file : Bytes)
  | register (req : InstanceRegisterRequest)
  | deregister (req : InstanceDeregisterRequest)
  | heartbeat (req : InstanceHeartbeatRequest)
  | initService (req : GetOneInstanceRequest)
  | getOneInstance (req : GetOneInstanceRequest)
  | getInstances (req : GetInstancesRequest)
  | getAllInstances (req : GetInstancesRequest)
  | updateServiceCallResult (req : ServiceCallResult)
  | getQuota (req : QuotaRequest)
  | updateCallResult (req : LimitCallResult)
  | initQuotaWindow (req : QuotaRequest)

/-- What a call left in an out-parameter `R *&resp` of the caller, who passes
it uninitialised. -/
inductive OutParam (R : Type) where
  | untouched
  | nullptr
  | response (r : R)

structure Outcome (R : Type) where
  code : ReturnCode
  resp : OutParam R

/-- The SDK's answers. -/
structure Sdk where
  /-- is a `Config` made of the file? -/
  createFromFile : Bytes → Bool
  createContext : Bool
  createProvider : Bool
  createConsumer : Bool
  createLimit : Bool
  /-- the code, and the instance id left in the out-parameter -/
  register : InstanceRegisterRequest → ReturnCode × Bytes
  deregister : InstanceDeregisterRequest → ReturnCode
  heartbeat : InstanceHeartbeatRequest → ReturnCode
  initService : GetOneInstanceRequest → ReturnCode
  getOneInstance : GetOneInstanceRequest → Outcome InstancesResponse
  getInstances : GetInstancesRequest → Outcome InstancesResponse
  getAllInstances : GetInstancesRequest → Outcome InstancesResponse
  updateServiceCallResult : ServiceCallResult → ReturnCode
  getQuota : QuotaRequest → Outcome QuotaResponse
  updateCallResult : LimitCallResult → ReturnCode
  initQuotaWindow : QuotaRequest → ReturnCode
  returnCodeToMsg : ReturnCode → Bytes

/-- An SDK that succeeds at everything and hands out no response. -/
def Sdk.idle : Sdk where
  createFromFile := fun _ => true
  createContext := true
  createProvider := true
  createConsumer := true
  createLimit := true
  register := fun _ => (.kReturnOk, [])
  deregister := fun _ => .kReturnOk
  heartbeat := fun _ => .kReturnOk
  initService := fun _ => .kReturnOk
  getOneInstance := fun _ => ⟨.kReturnOk, .nullptr⟩
  getInstances := fun _ => ⟨.kReturnOk, .nullptr⟩
  getAllInstances := fun _ => ⟨.kReturnOk, .nullptr⟩
  updateServiceCallResult := fun _ => .kReturnOk
  getQuota := fun _ => ⟨.kReturnOk, .nullptr⟩
  updateCallResult := fun _ => .kReturnOk
  initQuotaWindow := fun _ => .kReturnOk
  returnCodeToMsg := fun _ => []

theorem StdMap.sub_eq (m : StdMap) (k : Bytes) : m.sub k = (m[k]?).getD [] :=
  Std.ExtTreeMap.getD_eq_getD_getElem?

end PolarisPhp
