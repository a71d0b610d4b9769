/-
`limit_core.hpp`: quota acquisition, its feedback, and the initialisation
of a quota window.
-/
import PolarisPhp.ConsumerCore

namespace PolarisPhp

open Bytes Decimal

def convertToLimitCallResultType (val : Bytes) : LimitCallResultType :=
  if val = lit "Limit" then .kLimitCallResultLimited
  else if val = lit "Failed" then .kLimitCallResultFailed
  else .kLimitCallResultOk

def quotaRequestOf (params labels subset : StdMap) : QuotaRequest :=
  let tmp := params.sub Key.amount
  let tmp := if tmp = [] then lit "1" else tmp
  { serviceNamespace := params.sub Key.namespace_
    serviceName := params.sub Key.service
    acquireAmount := atoi tmp
    labels := labels
    subset := subset }

def convertToQuotaRequest (z : Zend) (reqVal : Zval) : Except Stop QuotaRequest := do
  let ht ← zArrvalP (some reqVal)
  let params ← transferToStdMap z ht
  let labelsVal := findEntry z ht Key.labels
  let labels ← transferIf z labelsVal labelsVal
  let subsetVal := findEntry z ht Key.serviceSubSet
  let subset ← transferIf z subsetVal subsetVal
  return quotaRequestOf params labels subset

/-! ## GetQuota -/

/-- `array_init(p)` writes through `p`, which must point to storage. -/
def arrayInit (p : Option HashTable) : Except Stop HashTable :=
  match p with
  | some _ => .ok Table.empty
  | none => .error .uninit

/-- The payload of a quota reply, built in the zval `p` points to. -/
def quotaResult (p : Option HashTable) (resp : QuotaResponse) : Except Stop HashTable := do
  let arr ← arrayInit p
  let arr := addAssocLong arr Key.resultCodeForQuota resp.resultCode.value
  let arr := addAssocLong arr Key.durationForQuota resp.quotaResultInfo.duration_.toInt64
  let arr := addAssocLong arr Key.leftQuota resp.quotaResultInfo.left_quota_
  let arr := addAssocLong arr Key.allQuota resp.quotaResultInfo.all_quota_
  let arr := addAssocBool arr Key.isDegrade resp.quotaResultInfo.is_degrade_
  return addAssocLong arr Key.waitTimeForQuota resp.waitTime.toInt64

/-- What `DoGetQuota` answers. On success it tests `resp` against `nullptr`. -/
def quotaReply (sdk : Sdk) (returnVal : HashTable) (o : Outcome QuotaResponse) : Except Stop HashTable :=
  let returnVal := addCode sdk o.code returnVal
  if o.code = .kReturnOk then
    match o.resp with
    | .response resp => do
      -- `zval *arr;` points nowhere
      let arr ← quotaResult none resp
      return addAssocZval returnVal Key.resultForQuota (.array arr)
    | .nullptr => .ok returnVal
    | .untouched => .error .uninit
  else .ok returnVal

def doGetQuota (z : Zend) (sdk : Sdk) (reqVal : Zval) (returnVal : HashTable) : Exec HashTable :=
  invoke (convertToQuotaRequest z reqVal) .getQuota
    (fun req => (sdk.getQuota req).resp.object .quotaResponse)
    fun req => quotaReply sdk returnVal (sdk.getQuota req)

/-! ## UpdateCallResult -/

def limitCallResultOf (params labels subset : StdMap) : LimitCallResult where
  serviceNamespace := params.sub Key.namespace_
  serviceName := params.sub Key.service
  subset := subset
  labels := labels
  responseResult := convertToLimitCallResultType (params.sub Key.callResponseType)
  responseTime := (atol (params.sub Key.callResponseTime)).toUInt64
  responseCode := atoi (params.sub Key.callResponseCode)

/-- `labelsVal != NULL && Z_TYPE_P(labelsVal) == IS_ARRAY`: the one nested
entry whose type is tested. -/
def transferArray (z : Zend) (val : Option Zval) : Except Stop StdMap :=
  match val with
  | some (.array ht) => transferToStdMap z ht
  | some _ | none => pure ∅

/-- The feedback `DoUpdateCallResult` builds. -/
def limitCallResult (z : Zend) (reqVal : Zval) : Except Stop LimitCallResult := do
  let ht ← zArrvalP (some reqVal)
  let params ← transferToStdMap z ht
  let labels ← transferArray z (findEntry z ht Key.labels)
  let subsetVal := findEntry z ht Key.serviceSubSet
  let subset ← transferIf z subsetVal subsetVal
  return limitCallResultOf params labels subset

def doUpdateCallResult (z : Zend) (sdk : Sdk) (reqVal : Zval) (returnVal : HashTable) : Exec HashTable :=
  invoke (limitCallResult z reqVal) .updateCallResult (fun _ => none)
    fun req => .ok (addCode sdk (sdk.updateCallResult req) returnVal)

/-! ## InitQuotaWindow -/

def doInitQuotaWindow (z : Zend) (sdk : Sdk) (reqVal : Zval) (returnVal : HashTable) : Exec HashTable :=
  invoke (convertToQuotaRequest z reqVal) .initQuotaWindow (fun _ => none)
    fun req => .ok (addCode sdk (sdk.initQuotaWindow req) returnVal)

end PolarisPhp
