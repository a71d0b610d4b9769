/-
A call, from the discovery of an instance to the report of how it went. A
script takes an instance out of a reply, calls it, and reports what came of
it with what the reply says. Whatever the SDK answered, and whichever objects
the two are asked of, the report reaches the SDK with the service, the address
and the locality information of the instance (`call_reported`).
-/
import PolarisPhp.Reading
import PolarisPhp.Stopping
import PolarisPhp.Wrapper

namespace PolarisPhp

open Bytes Decimal Fallible

/-! ## Reports -/

/-- The constants `Polaris::Ret_Status_*`. -/
inductive RetStatus where
  | ok
  | error
  | timeout
  deriving DecidableEq, Repr

def RetStatus.value : RetStatus → Bytes
  | .ok => lit "ok"
  | .error => lit "error"
  | .timeout => lit "timeout"

/-- The SDK's name for each. -/
def RetStatus.result : RetStatus → CallRetStatus
  | .ok => .kCallRetOk
  | .error => .kCallRetError
  | .timeout => .kCallRetTimeout

/-- How a call went, in numbers that PHP and the SDK both hold. -/
structure CallOutcome where
  status : RetStatus
  code : Int32
  delay : Nat
  fits : delay < 2 ^ 63

/-- The array `$ht[$key]`. -/
def dimArray (ht : HashTable) (key : ZKey) : HashTable :=
  match ht.find? key with
  | some (.array sub) => sub
  | _ => Table.empty

/-- The report on a call of the instance that the reply `rep` lists under `i`, its numbers cast to strings. -/
def callReport (z : Zend) (rep : HashTable) (i : Nat) (c : CallOutcome) : HashTable :=
  let response := dimArray rep (.name Key.getResponse)
  let inst := dimArray (dimArray response (.name Key.instances)) (.index i)
  arrayLiteral [(Key.namespace_, fetchDim response Key.namespace_), (Key.service, fetchDim response Key.service),
    (Key.host, fetchDim inst Key.host), (Key.port, .str (castString z (fetchDim inst Key.port))),
    (Key.localityAwareInfo, .str (castString z (fetchDim inst Key.localityAwareInfo))),
    (Key.callRetStatus, .str c.status.value), (Key.callRetCode, .str (castString z (.long c.code.toInt64))),
    (Key.delay, .str (castString z (.long (Int64.ofNat c.delay))))]

/-- What the SDK is to be told. -/
def reported (resp : InstancesResponse) (inst : Instance) (c : CallOutcome) : ServiceCallResult where
  serviceName := cstr resp.serviceName
  serviceNamespace := cstr resp.serviceNamespace
  host := cstr inst.host
  port := inst.port
  retStatus := c.status.result
  retCode := c.code
  delay := UInt64.ofNat c.delay
  localityAwareInfo := inst.localityAwareInfo

/-! ## Replies with a response -/

/-- A reply holds a response only where the SDK handed one out, and then its array. -/
theorem response_of_reply {z : Zend} {sdk : Sdk} {reqVal : Zval} {timeout flowId : UInt64} {op : Operation} {s : Served}
    {rep : HashTable} (hs : op.serve z sdk reqVal timeout flowId = .ok s) (hr : s.reply = .ok rep)
    (h : (rep.find? (.name Key.getResponse)).isSome) : ∃ resp, s.handedOut = some (.instancesResponse resp) ∧
      rep.find? (.name Key.getResponse) = some (.array (convertServiceResponseToZval resp)) := by
  have hto : RepliesTo sdk s rep := by
    obtain ⟨s', hs', rep', hr', hto⟩ := exists_reply_iff.mpr (answered_of_reply hs hr)
    rw [hs] at hs'
    cases hs'
    rw [hr] at hr'
    cases hr'
    exact hto
  obtain ⟨hcode, resp, hout⟩ := hto.response.mp h
  refine ⟨resp, hout, ?_⟩
  have hk : symtableKey (cstr Key.getResponse) = .name Key.getResponse := by decide
  have hquery : ∀ o : Outcome InstancesResponse, o.code = .kReturnOk →
      o.resp.object .instancesResponse = some (.instancesResponse resp) → instancesReply sdk Table.empty o = .ok rep →
      rep.find? (.name Key.getResponse) = some (.array (convertServiceResponseToZval resp)) := by
    rintro ⟨code, p⟩ rfl ho hrep
    cases p with
    | untouched | nullptr => cases ho
    | response r =>
      cases ho
      cases hrep
      rw [find?_addCode_other _ _ _ response_ne.1 response_ne.2, find?_addAssocZval_name hk, if_pos rfl]
  cases op <;> obtain ⟨req, -, he⟩ := bind_eq_ok.mp hs <;> cases he
  case getOneInstance | getInstances | getAllInstances => exact hquery _ hcode hout hr
  case getQuota =>
    cases hp : (sdk.getQuota req).resp with
    | untouched | nullptr => rw [hp] at hout; cases hout
    | response r => rw [hp] at hout; cases hout
  all_goals cases hout

/-- A call that is answered with a response was handed it. -/
theorem handed_response {z : Zend} {sdk : Sdk} {args : List Zval} {op : Operation} {w w' : World} {rep : HashTable}
    (h : (callOperation z sdk args op).run w = .ok (.array rep) w') (hr : (rep.find? (.name Key.getResponse)).isSome) :
    ∃ resp, w'.heap = w.heap ++ [.instancesResponse resp] ∧
      rep.find? (.name Key.getResponse) = some (.array (convertServiceResponseToZval resp)) := by
  rw [callOperation_cases] at h
  cases hp : op.parse z args with
  | wrongCount =>
    rw [hp] at h
    cases h
    cases hr
  | failure =>
    rw [hp] at h
    cases h
  | success a =>
    obtain ⟨reqVal, timeout, flowId⟩ := a
    simp only [hp] at h
    cases ha : op.api w.obj with
    | none =>
      rw [ha] at h
      cases h
      rw [(repliesWithout_nullptr _).response] at hr
      cases hr
    | some p =>
      simp only [ha] at h
      cases hs : op.serve z sdk reqVal timeout flowId with
      | error e =>
        rw [hs] at h
        cases h
      | ok s =>
        simp only [hs, serveResult, Served.result] at h
        cases hrep : s.reply with
        | error e =>
          rw [hrep] at h
          cases h
        | ok rep' =>
          rw [hrep] at h
          cases h
          obtain ⟨resp, hout, hfind⟩ := response_of_reply hs hrep hr
          exact ⟨resp, by rw [World.after, hout]; rfl, hfind⟩

/-! ## The report -/

section CallReport

variable {z : Zend} {rep : HashTable} {resp : InstancesResponse} {i : Nat} {inst : Instance} {c : CallOutcome}

def callReportKeys : List Bytes :=
  [Key.namespace_, Key.service, Key.host, Key.port, Key.localityAwareInfo, Key.callRetStatus, Key.callRetCode, Key.delay]

theorem plain_callReportKeys : callReportKeys.Nodup ∧ ∀ k ∈ callReportKeys, symtableKey k = .name k := by decide

/-- A field of a response's entry. -/
theorem fetchDim_field {k : Bytes} {v : Zval} (h : (k, v) ∈ writtenFields resp) :
    fetchDim (convertServiceResponseToZval resp) k = v := by
  have hk : k ∈ (writtenFields resp).map Prod.fst := List.mem_map.mpr ⟨_, h, rfl⟩
  rw [fetchDim, plain_fieldKeys.2 k hk, convertServiceResponseToZval_eq,
    find?_arrayLiteral fieldKeys rfl plain_fieldKeys h]
  rfl

theorem CallOutcome.toInt_delay (c : CallOutcome) : (Int64.ofNat c.delay).toInt = c.delay :=
  Int64.toInt_ofNat_of_lt c.fits

theorem RetStatus.convert_value (s : RetStatus) : convertToCallRetStatus (cstr s.value) = s.result := by
  cases s <;> decide

/-- What a script writes of the call. -/
def callReportEntries (resp : InstancesResponse) (inst : Instance) (c : CallOutcome) : List (Bytes × Bytes) :=
  [(Key.namespace_, cstr resp.serviceNamespace), (Key.service, cstr resp.serviceName), (Key.host, cstr inst.host),
    (Key.port, spell inst.port.toInt64.toInt), (Key.localityAwareInfo, spell inst.localityAwareInfo.toInt64.toInt),
    (Key.callRetStatus, c.status.value), (Key.callRetCode, spell c.code.toInt64.toInt), (Key.delay, spell c.delay)]

theorem callReport_eq (hrep : rep.find? (.name Key.getResponse) = some (.array (convertServiceResponseToZval resp)))
    (hi : resp.instances[i]? = some inst) :
    callReport z rep i c = arrayLiteral ((callReportEntries resp inst c).map fun p => (p.1, .str p.2)) := by
  have hresponse : dimArray rep (.name Key.getResponse) = convertServiceResponseToZval resp := by
    rw [dimArray, hrep]
  have hlist : dimArray (convertServiceResponseToZval resp) (.name Key.instances) =
      packed (resp.instances.map fun inst => .array (convertInstanceToArray inst)) := by
    rw [dimArray, find?_instances]
  have hentry : dimArray (packed (resp.instances.map fun inst => .array (convertInstanceToArray inst))) (.index i) =
      convertInstanceToArray inst := by
    rw [dimArray, find?_packed, List.getElem?_map, hi]
    rfl
  have hns : fetchDim (convertServiceResponseToZval resp) Key.namespace_ = .str (cstr resp.serviceNamespace) :=
    fetchDim_field (by simp [writtenFields])
  have hservice : fetchDim (convertServiceResponseToZval resp) Key.service = .str (cstr resp.serviceName) :=
    fetchDim_field (by simp [writtenFields])
  have hhost : fetchDim (convertInstanceToArray inst) Key.host = .str (cstr inst.host) :=
    fetchDim_attribute (by decide) (by simp [writtenAttributes])
  have hport : fetchDim (convertInstanceToArray inst) Key.port = .long inst.port.toInt64 :=
    fetchDim_attribute (by decide) (by simp [writtenAttributes])
  have hinfo : fetchDim (convertInstanceToArray inst) Key.localityAwareInfo = .long inst.localityAwareInfo.toInt64 :=
    fetchDim_attribute (by decide) (by simp [writtenAttributes])
  simp only [callReport, hresponse, hlist, hentry, hns, hservice, hhost, hport, hinfo, castString, callReportEntries,
    c.toInt_delay, List.map_cons, List.map_nil]

/-- The report is read as it was meant. -/
theorem serviceCallResult_callReport
    (hrep : rep.find? (.name Key.getResponse) = some (.array (convertServiceResponseToZval resp)))
    (hi : resp.instances[i]? = some inst) :
    serviceCallResult z (.array (callReport z rep i c)) = .ok (reported resp inst c) := by
  rw [callReport_eq hrep hi]
  generalize hl : ((callReportEntries resp inst c).map fun p => (p.1, Zval.str p.2)) = l
  have hstr : ∀ p ∈ l, ∃ t, p.2 = .str t := by
    subst hl
    intro p hp
    obtain ⟨q, -, rfl⟩ := List.mem_map.mp hp
    exact ⟨q.2, rfl⟩
  have hkeys : l.map Prod.fst = callReportKeys := by
    subst hl
    rfl
  have hn : NamesNulFree (arrayLiteral l) := namesNulFree_arrayLiteral callReportKeys hkeys plain_callReportKeys (by decide)
  have hstrings : Strings (arrayLiteral l) := strings_arrayLiteral callReportKeys hkeys plain_callReportKeys hstr
  have hsub : ∀ p ∈ callReportEntries resp inst c, (decoded z (arrayLiteral l)).sub p.1 = cstr p.2 := by
    intro p hp
    have hmem : (p.1, Zval.str p.2) ∈ l := hl ▸ List.mem_map.mpr ⟨p, hp, rfl⟩
    rw [hn.sub_decoded, find?_arrayLiteral callReportKeys hkeys plain_callReportKeys hmem]
    rfl
  have hother : ∀ {k}, k ∉ callReportKeys → (arrayLiteral l).find? (.name k) = none := fun hk =>
    find?_arrayLiteral_none callReportKeys hkeys plain_callReportKeys hk
  have hid : (decoded z (arrayLiteral l)).sub Key.instanceID = [] := by
    rw [hn.sub_decoded, hother (by decide)]
    rfl
  have hnone : ∀ {k}, k ∉ callReportKeys → findEntry z (arrayLiteral l) k = none := fun hk =>
    findEntry_eq_none hn fun _ => hother hk
  refine (serviceCallResult_eq_ok (sound_arrayLiteral_str hstr)).mpr ⟨hstrings.decodable z, ∅, ∅,
    .inl ⟨hnone (by decide), rfl⟩, .inl ⟨hnone (by decide), rfl⟩, .inl ⟨hnone (by decide), ?_⟩⟩
  simp only [callReportEntries, List.forall_mem_cons, List.not_mem_nil, false_imp_iff, implies_true, and_true,
    (nulFree_spell _).cstr, cstr_cstr] at hsub
  obtain ⟨hns, hservice, hhost, hport, hinfo, hstatus, hcode, hdelay⟩ := hsub
  have htime : (atol (spell c.delay)).toUInt64 = UInt64.ofNat c.delay := by
    rw [← c.toInt_delay, atol_spell]
    rfl
  simp only [reported, serviceCallResultOf, hid, hns, hservice, hhost, hport, hinfo, hstatus, hcode, hdelay, htime, atoi,
    c.status.convert_value, atol_spell, UInt64.toUInt64_toInt64, Int32.toInt32_toInt64]

end CallReport

/-- **A call is reported of the instance it was made to.** The reply of any
operation that lists instances, the report of a call of one of them, and the
objects and the SDKs that either is asked of, may be any. -/
theorem call_reported {z : Zend} {sdk : Sdk} {args : List Zval} {op : Operation} {w w' : World} {rep : HashTable}
    (h : (callOperation z sdk args op).run w = .ok (.array rep) w') (hr : (rep.find? (.name Key.getResponse)).isSome) :
    ∃ resp, w'.heap = w.heap ++ [.instancesResponse resp] ∧
      ∀ i inst, resp.instances[i]? = some inst → ∀ c (sdk' : Sdk) (u : World) (timeout flowId : Int64),
        u.obj.consumer.isSome →
          Makes (callOperation z sdk' [.array (callReport z rep i c), .long timeout, .long flowId]
            .updateServiceCallResult) u (.updateServiceCallResult (reported resp inst c)) := by
  obtain ⟨resp, hheap, hrep⟩ := handed_response h hr
  refine ⟨resp, hheap, fun i inst hi c sdk' u timeout flowId hu => ?_⟩
  obtain ⟨p, hp⟩ := Option.isSome_iff_exists.mp hu
  have hparse : Operation.updateServiceCallResult.parse z [.array (callReport z rep i c), .long timeout, .long flowId] =
      .success (.array (callReport z rep i c), timeout.toUInt64, flowId.toUInt64) := rfl
  unfold Makes
  rw [calls_callOperation hparse (show Operation.updateServiceCallResult.api u.obj = some p from hp)]
  simp only [Operation.serve, serviceCallResult_callReport hrep hi]
  rfl

def timedOut : CallOutcome := ⟨.timeout, -1, 3000, by decide⟩

/-- A client finds an instance, and reports that a call of it timed out. -/
theorem call_reported_timeout : ∃ rep w',
    (callOperation (Zend.reading .withoutNul none) (sdkWithId (lit "i-1")) [.array Table.empty, .long 100, .long 1]
      .getOneInstance).run World.ready = .ok (.array rep) w' ∧
    Makes (callOperation (Zend.reading .withoutNul none) Sdk.idle
        [.array (callReport (Zend.reading .withoutNul none) rep 0 timedOut), .long 100, .long 1]
        .updateServiceCallResult) World.ready
      (.updateServiceCallResult (reported someResponse { someInstance with id := lit "i-1" } timedOut)) := by
  have hrun : ∃ rep w', (callOperation (Zend.reading .withoutNul none) (sdkWithId (lit "i-1"))
      [.array Table.empty, .long 100, .long 1] .getOneInstance).run World.ready = .ok (.array rep) w' ∧
      (rep.find? (.name Key.getResponse)).isSome ∧
      w'.heap = [.instancesResponse { someResponse with instances := [{ someInstance with id := lit "i-1" }] }] :=
    ⟨_, _, rfl, rfl, rfl⟩
  obtain ⟨rep, w', hw, hr, hheap⟩ := hrun
  obtain ⟨resp, hresp, hall⟩ := call_reported hw hr
  rw [hheap] at hresp
  cases hresp
  exact ⟨rep, w', hw, hall 0 _ rfl _ Sdk.idle World.ready 100 1 rfl⟩

end PolarisPhp
