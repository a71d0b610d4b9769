/-
What a reply holds. Every reply the extension does build carries its code
and message and the payload that goes with them (`replyContract_iff`). It
builds none where the arguments are refused, where a bad read stops the
decoder, where a query succeeds without a response, and where a quota is
granted: the array for the quota's fields has no storage.
-/
import PolarisPhp.Operations

namespace PolarisPhp

open Bytes Fallible

/-! ## Entries of a reply -/

theorem code_ne_errMsg : Key.code ≠ Key.errMsg := by decide

theorem response_ne : Key.getResponse ≠ Key.code ∧ Key.getResponse ≠ Key.errMsg := by decide

theorem quota_ne : Key.resultForQuota ≠ Key.code ∧ Key.resultForQuota ≠ Key.errMsg := by decide

theorem find?_addAssocZval_name {ht : HashTable} {key k : Bytes} {v : Zval}
    (hk : symtableKey (cstr key) = .name key) :
    (addAssocZval ht key v).find? (.name k) = if k = key then some v else ht.find? (.name k) := by
  simp [find?_addAssocZval, hk]

section AddCode

variable (sdk : Sdk) (c : ReturnCode) (ht : HashTable)

theorem find?_addCode_code : (addCode sdk c ht).find? (.name Key.code) = some (.long c.value) := by
  have h1 : symtableKey (cstr Key.errMsg) = .name Key.errMsg := by decide
  have h2 : symtableKey (cstr Key.code) = .name Key.code := by decide
  simp [addCode, addAssocStringl, addAssocLong, find?_addAssocZval_name h1, find?_addAssocZval_name h2,
    code_ne_errMsg]

theorem find?_addCode_errMsg :
    (addCode sdk c ht).find? (.name Key.errMsg) = some (.str (sdk.returnCodeToMsg c)) := by
  have h1 : symtableKey (cstr Key.errMsg) = .name Key.errMsg := by decide
  simp [addCode, addAssocStringl, find?_addAssocZval_name h1]

theorem find?_addCode_other {k : Bytes} (hc : k ≠ Key.code) (he : k ≠ Key.errMsg) :
    (addCode sdk c ht).find? (.name k) = ht.find? (.name k) := by
  have h1 : symtableKey (cstr Key.errMsg) = .name Key.errMsg := by decide
  have h2 : symtableKey (cstr Key.code) = .name Key.code := by decide
  simp [addCode, addAssocStringl, addAssocLong, find?_addAssocZval_name h1, find?_addAssocZval_name h2, hc, he]

end AddCode

/-! ## The contract -/

/-- The fields of a quota's payload are the SDK's. -/
structure QuotaFields (arr : HashTable) (resp : QuotaResponse) : Prop where
  resultCode : arr.find? (.name Key.resultCodeForQuota) = some (.long resp.resultCode.value)
  duration : arr.find? (.name Key.durationForQuota) = some (.long resp.quotaResultInfo.duration_.toInt64)
  left : arr.find? (.name Key.leftQuota) = some (.long resp.quotaResultInfo.left_quota_)
  all : arr.find? (.name Key.allQuota) = some (.long resp.quotaResultInfo.all_quota_)
  degrade : arr.find? (.name Key.isDegrade) = some (.bool resp.quotaResultInfo.is_degrade_)
  waitTime : arr.find? (.name Key.waitTimeForQuota) = some (.long resp.waitTime.toInt64)

/-- The reply to a call that reached the SDK. -/
structure RepliesTo (sdk : Sdk) (s : Served) (rep : HashTable) : Prop where
  code : rep.find? (.name Key.code) = some (.long s.code.value)
  errMsg : rep.find? (.name Key.errMsg) = some (.str (sdk.returnCodeToMsg s.code))
  response : (rep.find? (.name Key.getResponse)).isSome ↔
    s.code = .kReturnOk ∧ ∃ r, s.handedOut = some (.instancesResponse r)
  quota : (rep.find? (.name Key.resultForQuota)).isSome ↔
    s.code = .kReturnOk ∧ ∃ r, s.handedOut = some (.quotaResponse r)
  fields : ∀ r, s.code = .kReturnOk → s.handedOut = some (.quotaResponse r) →
    ∃ arr, rep.find? (.name Key.resultForQuota) = some (.array arr) ∧ QuotaFields arr r

/-- The reply to a call that did not. -/
structure RepliesWithout (rep : HashTable) : Prop where
  code : rep.find? (.name Key.code) = some (.long (-1))
  errMsg : ∃ msg, rep.find? (.name Key.errMsg) = some (.str msg)
  response : rep.find? (.name Key.getResponse) = none
  quota : rep.find? (.name Key.resultForQuota) = none

/-- The call of an operation that reaches the SDK. -/
def Operation.reached (z : Zend) (sdk : Sdk) (args : List Zval) (obj : PolarisCoreObject) (op : Operation) :
    Option Served :=
  match op.parse z args, op.api obj with
  | .success (reqVal, timeout, flowId), some _ => (op.serve z sdk reqVal timeout flowId).toOption
  | _, _ => none

/-- An operation returns an array with its code, its message and the payload
that goes with them. -/
def ReplyContract (z : Zend) (sdk : Sdk) (args : List Zval) (w : World) (op : Operation) : Prop :=
  ∃ rep w', (callOperation z sdk args op).run w = .ok (.array rep) w' ∧
    match op.reached z sdk args w.obj with
    | some s => RepliesTo sdk s rep
    | none => RepliesWithout rep

/-! ## When a reply is built -/

/-- The SDK's answer, where it says success, leaves what the reply is built from. -/
def Outcome.Answerable (o : Outcome InstancesResponse) : Prop := o.code = .kReturnOk → ∃ r, o.resp = .response r

/-- The SDK's answer, where it says success, leaves nothing to build a reply from. -/
def Outcome.Empty (o : Outcome QuotaResponse) : Prop := o.code = .kReturnOk → o.resp = .nullptr

/-- The request array is decoded, and a reply is built from the SDK's answer. -/
def Operation.Answered (z : Zend) (sdk : Sdk) (reqVal : Zval) (timeout flowId : UInt64) : Operation → Prop
  | .getOneInstance => ∃ req, getOneInstanceRequest z reqVal timeout flowId = .ok req ∧
      (sdk.getOneInstance req).Answerable
  | .getInstances => ∃ req, getInstancesRequest z reqVal timeout flowId = .ok req ∧
      (sdk.getInstances req).Answerable
  | .getAllInstances => ∃ req, getAllInstancesRequest z reqVal timeout flowId = .ok req ∧
      (sdk.getAllInstances req).Answerable
  | .getQuota => ∃ req, convertToQuotaRequest z reqVal = .ok req ∧ (sdk.getQuota req).Empty
  | op => ∃ s, op.serve z sdk reqVal timeout flowId = .ok s

/-- The arguments are in order, and the API object is missing or the call is answered. -/
def Operation.Replies (z : Zend) (sdk : Sdk) (args : List Zval) (obj : PolarisCoreObject) (op : Operation) : Prop :=
  ∃ reqVal timeout flowId, op.parse z args = .success (reqVal, timeout, flowId) ∧
    (op.api obj = none ∨ op.Answered z sdk reqVal timeout flowId)

/-! ## The replies -/

theorem repliesWithout_nullptr (msg : Bytes) : RepliesWithout (nullptrReply msg) := by
  have h1 : symtableKey (cstr Key.errMsg) = .name Key.errMsg := by decide
  have h2 : symtableKey (cstr Key.code) = .name Key.code := by decide
  have hf : ∀ k, (nullptrReply msg).find? (.name k) =
      if k = Key.errMsg then some (.str msg) else if k = Key.code then some (.long (-1)) else none := by
    intro k
    simp [nullptrReply, addAssocStringl, addAssocLong, find?_addAssocZval_name h1, find?_addAssocZval_name h2]
  refine ⟨?_, ⟨msg, ?_⟩, ?_, ?_⟩
  · simp [hf, code_ne_errMsg]
  · simp [hf]
  · simp [hf, response_ne]
  · simp [hf, quota_ne]

/-- A reply of a code and a message alone. -/
theorem repliesTo_addCode {sdk : Sdk} {c : SdkCall} {code : ReturnCode} {o : Option SdkObject}
    {r : Except Stop HashTable} (h : code = .kReturnOk → o = none) :
    RepliesTo sdk ⟨c, code, o, r⟩ (addCode sdk code Table.empty) where
  code := find?_addCode_code _ _ _
  errMsg := find?_addCode_errMsg _ _ _
  response := by
    rw [find?_addCode_other _ _ _ response_ne.1 response_ne.2]
    simp only [Table.find?_empty, Option.isSome_none, Bool.false_eq_true, false_iff, not_and, not_exists]
    intro hc r hr
    simp [h hc] at hr
  quota := by
    rw [find?_addCode_other _ _ _ quota_ne.1 quota_ne.2]
    simp only [Table.find?_empty, Option.isSome_none, Bool.false_eq_true, false_iff, not_and, not_exists]
    intro hc r hr
    simp [h hc] at hr
  fields r hc hr := by simp [h hc] at hr

/-- A registration's reply adds the instance id. -/
theorem repliesTo_register {sdk : Sdk} {c : SdkCall} {r : Except Stop HashTable} (req : InstanceRegisterRequest) :
    RepliesTo sdk ⟨c, (sdk.register req).1, none, r⟩ (registerReply sdk Table.empty req) := by
  have h1 : symtableKey (cstr Key.instanceID) = .name Key.instanceID := by decide
  have h : RepliesTo sdk ⟨c, (sdk.register req).1, none, r⟩ (addCode sdk (sdk.register req).1 Table.empty) :=
    repliesTo_addCode fun _ => rfl
  have hf : ∀ k, k ≠ Key.instanceID → (registerReply sdk Table.empty req).find? (.name k) =
      (addCode sdk (sdk.register req).1 Table.empty).find? (.name k) := by
    intro k hk
    simp [registerReply, addAssocStringl, find?_addAssocZval_name h1, hk]
  have hne : Key.code ≠ Key.instanceID ∧ Key.errMsg ≠ Key.instanceID ∧ Key.getResponse ≠ Key.instanceID ∧
      Key.resultForQuota ≠ Key.instanceID := by decide
  exact ⟨(hf _ hne.1).trans h.code, (hf _ hne.2.1).trans h.errMsg, by rw [hf _ hne.2.2.1]; exact h.response,
    by rw [hf _ hne.2.2.2]; exact h.quota, fun r _ hr => by cases hr⟩

/-- A query's reply, where one is built, is the one the contract asks for. -/
theorem repliesTo_instances {sdk : Sdk} {c : SdkCall} {o : Outcome InstancesResponse} {rep : HashTable}
    {r : Except Stop HashTable} (h : instancesReply sdk Table.empty o = .ok rep) :
    RepliesTo sdk ⟨c, o.code, o.resp.object .instancesResponse, r⟩ rep := by
  unfold instancesReply at h
  split at h
  · rename_i hc
    split at h <;> cases h
    rename_i resp hr
    have h1 : symtableKey (cstr Key.getResponse) = .name Key.getResponse := by decide
    have hne : Key.resultForQuota ≠ Key.getResponse := by decide
    refine ⟨find?_addCode_code _ _ _, find?_addCode_errMsg _ _ _, ?_, ?_, ?_⟩
    · rw [find?_addCode_other _ _ _ response_ne.1 response_ne.2, find?_addAssocZval_name h1]
      simp [hc, hr, OutParam.object]
    · rw [find?_addCode_other _ _ _ quota_ne.1 quota_ne.2, find?_addAssocZval_name h1]
      simp [hr, OutParam.object, hne]
    · intro r' _ hr'
      simp [hr, OutParam.object] at hr'
  · rename_i hc
    cases h
    exact repliesTo_addCode fun h => absurd h hc

theorem exists_instancesReply (sdk : Sdk) (o : Outcome InstancesResponse) :
    (∃ rep, instancesReply sdk Table.empty o = .ok rep) ↔ o.Answerable := by
  unfold instancesReply Outcome.Answerable
  by_cases hc : o.code = .kReturnOk
  · cases o.resp <;> simp [hc]
  · simp [hc]

/-- No payload of a quota is ever built. -/
theorem exists_quotaReply (sdk : Sdk) (o : Outcome QuotaResponse) :
    (∃ rep, quotaReply sdk Table.empty o = .ok rep) ↔ o.Empty := by
  unfold quotaReply Outcome.Empty
  by_cases hc : o.code = .kReturnOk
  · cases o.resp <;> simp [hc, quotaResult, arrayInit, bind, Except.bind]
  · simp [hc]

theorem repliesTo_quota {sdk : Sdk} {c : SdkCall} {o : Outcome QuotaResponse} {rep : HashTable}
    {r : Except Stop HashTable} (h : quotaReply sdk Table.empty o = .ok rep) :
    RepliesTo sdk ⟨c, o.code, o.resp.object .quotaResponse, r⟩ rep := by
  have he := (exists_quotaReply sdk o).mp ⟨rep, h⟩
  have hrep : rep = addCode sdk o.code Table.empty := by
    unfold quotaReply at h
    by_cases hc : o.code = .kReturnOk
    · simpa [hc, he hc, eq_comm] using h
    · simpa [hc, eq_comm] using h
  subst hrep
  exact repliesTo_addCode fun hc => by simp [he hc, OutParam.object]

/-- A served call is answered as the contract asks, or not at all. -/
theorem exists_reply_iff {z : Zend} {sdk : Sdk} {reqVal : Zval} {timeout flowId : UInt64} {op : Operation} :
    (∃ s, op.serve z sdk reqVal timeout flowId = .ok s ∧ ∃ rep, s.reply = .ok rep ∧ RepliesTo sdk s rep) ↔
      op.Answered z sdk reqVal timeout flowId := by
  cases op with
  | register =>
    refine ⟨fun h => ?_, fun h => ?_⟩
    · obtain ⟨s, hs, -⟩ := h
      exact ⟨s, hs⟩
    · obtain ⟨s, hs⟩ := h
      obtain ⟨req, -, he⟩ := bind_eq_ok.mp hs
      cases he
      exact ⟨_, hs, _, rfl, repliesTo_register req⟩
  | deregister | heartbeat | initService | updateServiceCallResult | updateCallResult | initQuotaWindow =>
    refine ⟨fun hx => ?_, fun hx => ?_⟩
    · obtain ⟨s, hs, -⟩ := hx
      exact ⟨s, hs⟩
    · obtain ⟨s, hs⟩ := hx
      obtain ⟨req, -, he⟩ := bind_eq_ok.mp hs
      cases he
      exact ⟨_, hs, _, rfl, repliesTo_addCode fun _ => rfl⟩
  | getOneInstance | getInstances | getAllInstances =>
    refine ⟨fun hiff => ?_, fun hiff => ?_⟩
    · obtain ⟨s, hs, rep, hr, -⟩ := hiff
      obtain ⟨req, hreq, he⟩ := bind_eq_ok.mp hs
      cases he
      exact ⟨req, hreq, (exists_instancesReply sdk _).mp ⟨rep, hr⟩⟩
    · obtain ⟨req, hreq, ha⟩ := hiff
      obtain ⟨rep, hr⟩ := (exists_instancesReply sdk _).mpr ha
      exact ⟨_, bind_eq_ok.mpr ⟨req, hreq, rfl⟩, rep, hr, repliesTo_instances hr⟩
  | getQuota =>
    refine ⟨fun hall => ?_, fun hall => ?_⟩
    · obtain ⟨s, hs, rep, hr, -⟩ := hall
      obtain ⟨req, hreq, he⟩ := bind_eq_ok.mp hs
      cases he
      exact ⟨req, hreq, (exists_quotaReply sdk _).mp ⟨rep, hr⟩⟩
    · obtain ⟨req, hreq, ha⟩ := hall
      obtain ⟨rep, hr⟩ := (exists_quotaReply sdk _).mpr ha
      exact ⟨_, bind_eq_ok.mpr ⟨req, hreq, rfl⟩, rep, hr, repliesTo_quota hr⟩

theorem replyContract_served {z : Zend} {sdk : Sdk} {args : List Zval} {w : World} {op : Operation} {reqVal : Zval}
    {timeout flowId : UInt64} {p : Ptr} (hp : op.parse z args = .success (reqVal, timeout, flowId))
    (ha : op.api w.obj = some p) :
    ReplyContract z sdk args w op ↔
      ∃ s, op.serve z sdk reqVal timeout flowId = .ok s ∧ ∃ rep, s.reply = .ok rep ∧ RepliesTo sdk s rep := by
  unfold ReplyContract Operation.reached
  rw [callOperation_cases, hp, ha]
  dsimp only
  cases hs : op.serve z sdk reqVal timeout flowId with
  | error e => simp [serveResult]
  | ok s =>
    simp only [serveResult, Served.result, Except.toOption, Except.ok.injEq, exists_eq_left']
    refine ⟨fun h => ?_, fun h => ?_⟩
    · obtain ⟨rep, w', hr, ht⟩ := h
      split at hr <;> cases hr
      exact ⟨_, ‹_›, ht⟩
    · obtain ⟨rep, hr, ht⟩ := h
      exact ⟨rep, _, by rw [hr], ht⟩

theorem replyContract_refused {z : Zend} {sdk : Sdk} {args : List Zval} {w : World} {op : Operation}
    (hp : ∀ a, op.parse z args ≠ .success a) : ¬ ReplyContract z sdk args w op := by
  rintro ⟨rep, w', hr, ht⟩
  rw [callOperation_cases] at hr
  unfold Operation.reached at ht
  split at hr
  · cases hr
    rename_i hw
    rw [hw] at ht
    exact absurd ht.code (by simp)
  · cases hr
  · rename_i hw
    exact hp _ hw

/-- **The reply contract** holds exactly when the arguments are in order and
the API object is missing or the call is answered. -/
theorem replyContract_iff (z : Zend) (sdk : Sdk) (args : List Zval) (w : World) (op : Operation) :
    ReplyContract z sdk args w op ↔ op.Replies z sdk args w.obj := by
  unfold Operation.Replies
  cases hp : op.parse z args with
  | wrongCount | failure => simpa using replyContract_refused (by simp [hp])
  | success a =>
    obtain ⟨reqVal, timeout, flowId⟩ := a
    cases ha : op.api w.obj with
    | none =>
      refine iff_of_true ?_ ⟨_, _, _, rfl, .inl rfl⟩
      unfold ReplyContract Operation.reached
      rw [callOperation_cases, hp, ha]
      exact ⟨_, w, rfl, repliesWithout_nullptr _⟩
    | some p =>
      rw [replyContract_served hp ha, exists_reply_iff]
      simp [Parsed.success.injEq]

/-- An SDK that grants every quota. -/
def grantingSdk : Sdk :=
  { Sdk.idle with getQuota := fun _ => ⟨.kReturnOk, .response ⟨.kQuotaResultOk, ⟨9, 10, 1000, false⟩, 0⟩⟩ }

/-- A quota is granted, and the array for its fields is written nowhere. -/
theorem replyContract_granted :
    ¬ ∀ (z : Zend) (sdk : Sdk) (args : List Zval) (w : World) (op : Operation), ReplyContract z sdk args w op := by
  intro h
  have hp : Operation.getQuota.parse (Zend.reading .withoutNul none) [.array Table.empty] =
      .success (.array Table.empty, 0, 0) := rfl
  have hc := h (Zend.reading .withoutNul none) grantingSdk [.array Table.empty]
    { polarisCoreCreateHandler with obj := { limit := some 0 } } .getQuota
  obtain ⟨req, -, he⟩ := exists_reply_iff.mp ((replyContract_served hp rfl).mp hc)
  cases he rfl

end PolarisPhp
