/-
`polaris_core.hpp`: the class `PolarisClient`. Its eleven operations check
their arguments and the API object they need, and otherwise leave the work
to the function of the same name (`apiMethod`).
-/
import PolarisPhp.LimitCore

namespace PolarisPhp

open Bytes

/-! ## Arguments -/

/-- What becomes of a method's arguments. -/
inductive Parsed (α : Type) where
  /-- `WRONG_PARAM_COUNT` -/
  | wrongCount
  /-- `zend_parse_parameters` fails -/
  | failure
  | success (a : α)

/-- The specifier `a`. -/
def parseArray (arg : Zval) : Option Zval :=
  match arg.deref with
  | .array ht => some (.array ht)
  | _ => none

/-- The specifier `l`, into a `uint64_t`. -/
def parseLong (z : Zend) (arg : Zval) : Option UInt64 :=
  match arg.deref with
  | .long n => some n.toUInt64
  | v => (z.toLong v).map Int64.toUInt64

/-- `"a"`, for exactly one argument. -/
def parseA : List Zval → Parsed Zval
  | [arg] => match parseArray arg with
    | some reqVal => .success reqVal
    | none => .failure
  | _ => .wrongCount

/-- `"a|ll"`, for exactly three arguments. -/
def parseALL (z : Zend) : List Zval → Parsed (Zval × UInt64 × UInt64)
  | [arg, timeout, flowId] => match parseArray arg, parseLong z timeout, parseLong z flowId with
    | some reqVal, some timeout, some flowId => .success (reqVal, timeout, flowId)
    | _, _, _ => .failure
  | _ => .wrongCount

/-! ## The object -/

/-- `__construct`: what the four fields held before is overwritten. -/
def construct (z : Zend) (sdk : Sdk) (args : List Zval) : Exec Zval :=
  match parseA args with
  | .wrongCount | .failure => throw .exit
  | .success arg => do
    let paramMap ← decode (zArrvalP (some arg))
    let params ← decode (transferToStdMap z paramMap)
    call (.setLogDir (params.sub Key.logDir))
    call (.createFromFile (params.sub Key.configPath))
    if sdk.createFromFile (params.sub Key.configPath) then
      -- `config` is a local: no field keeps it, and no `delete` runs on it
      receiveConfig (params.sub Key.configPath)
      let globalCtx ← create sdk.createContext .context
      modify fun w => { w with obj := { globalCtx := globalCtx } }
      if globalCtx.isNone then throw .exit else return .null
    else throw .exit

/-- The shape of the initialisers: an API object is created for a field that is `NULL`. -/
def initApi (api : PolarisCoreObject → Option Ptr) (set : PolarisCoreObject → Option Ptr → PolarisCoreObject)
    (made : Bool) (apiObject : Option Ptr → SdkObject) : Exec Zval := do
  let obj := (← get).obj
  if (api obj).isNone then
    let p ← create made (apiObject obj.globalCtx)
    modify fun w => { w with obj := set w.obj p }
  return .null

def initProvider (sdk : Sdk) : Exec Zval :=
  initApi PolarisCoreObject.provider (fun obj provider => { obj with provider := provider }) sdk.createProvider
    .providerApi

def initConsumer (sdk : Sdk) : Exec Zval :=
  initApi PolarisCoreObject.consumer (fun obj consumer => { obj with consumer := consumer }) sdk.createConsumer
    .consumerApi

def initLimit (sdk : Sdk) : Exec Zval :=
  initApi PolarisCoreObject.limit (fun obj limit => { obj with limit := limit }) sdk.createLimit .limitApi

def polarisCoreFreeStorage : Exec Unit := do
  let obj := (← get).obj
  delete obj.provider
  delete obj.consumer
  delete obj.limit
  delete obj.globalCtx
  efree

/-- `zend_objects_store_free_object_storage`: `free_obj`, then Zend's own
`efree` of the object's block. -/
def release : Exec Unit := do
  polarisCoreFreeStorage
  efree

/-! ## The operations -/

/-- The shape of the operations. -/
def apiMethod {α : Type} (args : Parsed α) (api : PolarisCoreObject → Option Ptr) (errMsg : Bytes)
    (run : α → HashTable → Exec HashTable) : Exec Zval :=
  let returnValue : HashTable := Table.empty
  match args with
  | .wrongCount => return .array returnValue
  | .failure => return .long (-1)
  | .success a => do
    match api (← get).obj with
    | some _ => return .array (← run a returnValue)
    | none => return .array (addAssocStringl (addAssocLong returnValue Key.code (-1)) Key.errMsg errMsg)

def providerIsNullptr : Bytes := lit "polaris provider instance is nullptr"
def consumerIsNullptr : Bytes := lit "polaris consumer instance is nullptr"
def limitIsNullptr : Bytes := lit "polaris limit instance is nullptr"

section Methods

variable (z : Zend) (sdk : Sdk) (args : List Zval)

def register : Exec Zval :=
  apiMethod (parseALL z args) PolarisCoreObject.provider providerIsNullptr
    fun (reqVal, timeout, flowId) => registerInstance z sdk reqVal timeout flowId

def deregister : Exec Zval :=
  apiMethod (parseALL z args) PolarisCoreObject.provider providerIsNullptr
    fun (reqVal, timeout, flowId) => deregisterInstance z sdk reqVal timeout flowId

def heartbeat : Exec Zval :=
  apiMethod (parseA args) PolarisCoreObject.provider providerIsNullptr fun reqVal => doHeartbeat z sdk reqVal

def initService : Exec Zval :=
  apiMethod (parseALL z args) PolarisCoreObject.consumer consumerIsNullptr
    fun (reqVal, timeout, flowId) => doInitService z sdk reqVal timeout flowId

def getOneInstance : Exec Zval :=
  apiMethod (parseALL z args) PolarisCoreObject.consumer consumerIsNullptr
    fun (reqVal, timeout, flowId) => doGetOneInstance z sdk reqVal timeout flowId

def getInstances : Exec Zval :=
  apiMethod (parseALL z args) PolarisCoreObject.consumer consumerIsNullptr
    fun (reqVal, timeout, flowId) => doGetInstances z sdk reqVal timeout flowId

def getAllInstances : Exec Zval :=
  apiMethod (parseALL z args) PolarisCoreObject.consumer consumerIsNullptr
    fun (reqVal, timeout, flowId) => doGetAllInstances z sdk reqVal timeout flowId

def updateServiceCallResult : Exec Zval :=
  apiMethod (parseALL z args) PolarisCoreObject.consumer consumerIsNullptr
    fun (reqVal, timeout, flowId) => doUpdateServiceCallResult z sdk reqVal timeout flowId

def getQuota : Exec Zval :=
  apiMethod (parseA args) PolarisCoreObject.limit limitIsNullptr fun reqVal => doGetQuota z sdk reqVal

def updateCallResult : Exec Zval :=
  apiMethod (parseA args) PolarisCoreObject.limit limitIsNullptr fun reqVal => doUpdateCallResult z sdk reqVal

def initQuotaWindow : Exec Zval :=
  apiMethod (parseA args) PolarisCoreObject.limit limitIsNullptr fun reqVal => doInitQuotaWindow z sdk reqVal

end Methods

/-- `polaris_core_functions`, the operations. -/
inductive Operation where
  | register
  | deregister
  | heartbeat
  | initService
  | getOneInstance
  | getInstances
  | getAllInstances
  | updateServiceCallResult
  | getQuota
  | updateCallResult
  | initQuotaWindow
  deriving DecidableEq, Repr

/-- `polaris_core_functions`. -/
inductive Method where
  | construct
  | initProvider
  | initConsumer
  | initLimit
  | operation (op : Operation)
  deriving DecidableEq, Repr

def callOperation (z : Zend) (sdk : Sdk) (args : List Zval) : Operation → Exec Zval
  | .register => register z sdk args
  | .deregister => deregister z sdk args
  | .heartbeat => heartbeat z sdk args
  | .initService => initService z sdk args
  | .getOneInstance => getOneInstance z sdk args
  | .getInstances => getInstances z sdk args
  | .getAllInstances => getAllInstances z sdk args
  | .updateServiceCallResult => updateServiceCallResult z sdk args
  | .getQuota => getQuota z sdk args
  | .updateCallResult => updateCallResult z sdk args
  | .initQuotaWindow => initQuotaWindow z sdk args

def callMethod (z : Zend) (sdk : Sdk) (args : List Zval) : Method → Exec Zval
  | .construct => construct z sdk args
  | .initProvider => initProvider sdk
  | .initConsumer => initConsumer sdk
  | .initLimit => initLimit sdk
  | .operation op => callOperation z sdk args op

end PolarisPhp
