/-
When each request is built, and from what. Every decoder comes down to the
same facts: the request array can be read (`Decodable`), and each nested
lookup finds nothing or an array that can be read (`Fetches`,
`FetchesSource`); the request is then the record of what was read. What
keeps a request from being built is always a bad read.
-/
import PolarisPhp.Lib.Fallible
import PolarisPhp.PolarisCore

namespace PolarisPhp

open Bytes Fallible

/-! ## Nested lookups -/

/-- A lookup that finds `val` and reads `src` ends with the map `m`. -/
def Fetches (z : Zend) (val src : Option Zval) (m : StdMap) : Prop :=
  (val = none ∧ m = ∅) ∨ (val ≠ none ∧ ∃ ht, src = some (.array ht) ∧ Decodable z ht ∧ m = decoded z ht)

/-- A lookup that finds the source `val`, whose metadata `srcmeta` looks up,
ends with `srcInfo`. -/
def FetchesSource (z : Zend) (val : Option Zval) (srcmeta : HashTable → Option Zval)
    (srcInfo : Option ServiceInfo) : Prop :=
  (val = none ∧ srcInfo = none) ∨ ∃ ht, val = some (.array ht) ∧ Decodable z ht ∧
    ∃ m, Fetches z (srcmeta ht) (srcmeta ht) m ∧ srcInfo = some {
      service_key_ := ⟨(decoded z ht).sub Key.namespace_, (decoded z ht).sub Key.service⟩
      metadata_ := m }

/-- The type test before a nested array is read. -/
def FetchesArray (z : Zend) (val : Option Zval) (m : StdMap) : Prop :=
  ((∀ ht, val ≠ some (.array ht)) ∧ m = ∅) ∨ ∃ ht, val = some (.array ht) ∧ Decodable z ht ∧ m = decoded z ht

theorem Fetches.decodable {z : Zend} {val : Option Zval} {ht : HashTable} {m : StdMap}
    (h : Fetches z val (some (.array ht)) m) (hv : val ≠ none) : Decodable z ht := by
  rcases h with ⟨hn, -⟩ | ⟨-, ht', he, hd, -⟩
  · exact absurd hn hv
  · exact Zval.array.inj (Option.some.inj he) ▸ hd

theorem FetchesArray.decodable {z : Zend} {ht : HashTable} {m : StdMap}
    (h : FetchesArray z (some (.array ht)) m) : Decodable z ht := by
  rcases h with ⟨hn, -⟩ | ⟨ht', he, hd, -⟩
  · exact absurd rfl (hn ht)
  · exact Zval.array.inj (Option.some.inj he) ▸ hd

/-- What a lookup finds is a PHP value. -/
def SoundAt (val : Option Zval) : Prop := ∀ v, val = some v → v.Sound

theorem SoundAt.array {val : Option Zval} (h : SoundAt val) {ht : HashTable} (hv : val = some (.array ht)) :
    Zval.Sound (.array ht) := h _ hv

theorem soundAt_findEntry {ht : HashTable} (hs : Zval.Sound (.array ht)) (z : Zend) (key : Bytes) :
    SoundAt (findEntry z ht key) := by
  intro v hv
  rw [findEntry_eq] at hv
  exact hs.of_mem (Table.mem_of_find? hv)

theorem transferIf_eq_ok {z : Zend} {val src : Option Zval} (hs : SoundAt src) {m : StdMap} :
    transferIf z val src = .ok m ↔ Fetches z val src m := by
  cases val with
  | none =>
    rw [transferIf_none]
    exact ⟨fun h => .inl ⟨rfl, by cases h; rfl⟩, fun h => by simp_all [Fetches]⟩
  | some v =>
    simp only [transferIf_some, bind_eq_ok, zArrvalP_eq_ok, Fetches, reduceCtorEq, false_and, ne_eq,
      not_false_eq_true, true_and, false_or]
    refine ⟨fun hx => ?_, fun hx => ?_⟩
    · obtain ⟨ht, rfl, h⟩ := hx
      exact ⟨ht, rfl, (transferToStdMap_eq_ok (hs.array rfl).of_array).mp h⟩
    · obtain ⟨ht, rfl, h⟩ := hx
      exact ⟨ht, rfl, (transferToStdMap_eq_ok (hs.array rfl).of_array).mpr h⟩

theorem transferSource_eq_ok {z : Zend} {val : Option Zval} {srcmeta : HashTable → Option Zval}
    (hs : SoundAt val) (hm : ∀ ht, val = some (.array ht) → SoundAt (srcmeta ht)) {srcInfo : Option ServiceInfo} :
    transferSource z val srcmeta = .ok srcInfo ↔ FetchesSource z val srcmeta srcInfo := by
  cases val with
  | none =>
    simp [transferSource, pure_eq_ok, FetchesSource]
  | some v =>
    simp only [transferSource, bind_eq_ok, zArrvalP_eq_ok, pure_eq_ok, FetchesSource, reduceCtorEq, false_and,
      false_or]
    refine ⟨fun h => ?_, fun h => ?_⟩
    · obtain ⟨ht, hv, _, ht', m, hm', rfl⟩ := h
      obtain ⟨hd, rfl⟩ := (transferToStdMap_eq_ok (hs.array hv).of_array).mp ht'
      exact ⟨ht, hv, hd, m, (transferIf_eq_ok (hm ht hv)).mp hm', rfl⟩
    · obtain ⟨ht, hv, hd, m, hm', rfl⟩ := h
      exact ⟨ht, hv, _, transferToStdMap_ok (hs.array hv).of_array hd, m, (transferIf_eq_ok (hm ht hv)).mpr hm',
        rfl⟩

theorem transferArray_eq_ok {z : Zend} {val : Option Zval} (hs : SoundAt val) {m : StdMap} :
    transferArray z val = .ok m ↔ FetchesArray z val m := by
  unfold transferArray FetchesArray
  split
  · rename_i ht
    rw [transferToStdMap_eq_ok (hs.array rfl).of_array]
    simp
  · rename_i v hv
    have hn : ∀ ht, some v ≠ some (.array ht) := fun ht h => hv ht (by simpa using h)
    simp [pure_eq_ok, hn]
  · simp [pure_eq_ok]

/-! ## The requests -/

section Requests

variable {z : Zend} {ht : HashTable} (hs : Zval.Sound (.array ht)) {timeout flowId : UInt64}
include hs

theorem registerRequest_eq_ok {req : InstanceRegisterRequest} :
    registerRequest z (.array ht) timeout flowId = .ok req ↔
      Decodable z ht ∧ ∃ m, Fetches z (findEntry z ht Key.metadata) (findEntry z ht Key.metadata) m ∧
        req = registerRequestOf (decoded z ht) m timeout flowId := by
  simp only [registerRequest, zArrvalP_array, bind_eq_ok, Except.ok.injEq, exists_eq_left', pure_eq_ok,
    transferToStdMap_eq_ok hs.of_array, transferIf_eq_ok (soundAt_findEntry hs z _), and_assoc, exists_and_left,
    exists_eq_left]

theorem deregisterRequest_eq_ok {req : InstanceDeregisterRequest} :
    deregisterRequest z (.array ht) timeout flowId = .ok req ↔
      Decodable z ht ∧ req = deregisterRequestOf (decoded z ht) timeout flowId := by
  simp only [deregisterRequest, zArrvalP_array, bind_eq_ok, Except.ok.injEq, exists_eq_left', pure_eq_ok,
    transferToStdMap_eq_ok hs.of_array, and_assoc, exists_and_left, exists_eq_left]

theorem heartbeatRequest_eq_ok {req : InstanceHeartbeatRequest} :
    heartbeatRequest z (.array ht) = .ok req ↔ Decodable z ht ∧ req = heartbeatRequestOf (decoded z ht) := by
  simp only [heartbeatRequest, zArrvalP_array, bind_eq_ok, Except.ok.injEq, exists_eq_left', pure_eq_ok,
    transferToStdMap_eq_ok hs.of_array, and_assoc, exists_and_left, exists_eq_left]

theorem initServiceRequest_eq_ok {req : GetOneInstanceRequest} :
    initServiceRequest z (.array ht) timeout flowId = .ok req ↔
      Decodable z ht ∧ ∃ m l s, Fetches z (findEntry z ht Key.metadata) (findEntry z ht Key.metadata) m ∧
        Fetches z (findEntry z ht Key.labels) (findEntry z ht Key.metadata) l ∧
        FetchesSource z (findEntry z ht Key.sourceService) (findEntry z · Key.metadata) s ∧
        req = initServiceRequestOf (decoded z ht) m l s timeout flowId := by
  simp only [initServiceRequest, zArrvalP_array, bind_eq_ok, Except.ok.injEq, exists_eq_left', pure_eq_ok,
    transferToStdMap_eq_ok hs.of_array, transferIf_eq_ok (soundAt_findEntry hs z _),
    transferSource_eq_ok (soundAt_findEntry hs z _) fun _ hv => soundAt_findEntry (soundAt_findEntry hs z _ _ hv) z _,
    and_assoc, exists_and_left, exists_eq_left]

theorem getOneInstanceRequest_eq_ok {req : GetOneInstanceRequest} :
    getOneInstanceRequest z (.array ht) timeout flowId = .ok req ↔
      Decodable z ht ∧ ∃ m l s, Fetches z (findEntry z ht Key.metadata) (findEntry z ht Key.metadata) m ∧
        Fetches z (findEntry z ht Key.labels) (findEntry z ht Key.metadata) l ∧
        FetchesSource z (findEntry z ht Key.sourceService) (findEntry z · Key.metadata) s ∧
        req = getOneInstanceRequestOf (decoded z ht) m l s timeout flowId := by
  simp only [getOneInstanceRequest, zArrvalP_array, bind_eq_ok, Except.ok.injEq, exists_eq_left', pure_eq_ok,
    transferToStdMap_eq_ok hs.of_array, transferIf_eq_ok (soundAt_findEntry hs z _),
    transferSource_eq_ok (soundAt_findEntry hs z _) fun _ hv => soundAt_findEntry (soundAt_findEntry hs z _ _ hv) z _,
    and_assoc, exists_and_left, exists_eq_left]

theorem getInstancesRequest_eq_ok {req : GetInstancesRequest} :
    getInstancesRequest z (.array ht) timeout flowId = .ok req ↔
      Decodable z ht ∧ ∃ m s, Fetches z (findEntry z ht Key.metadata) (findEntry z ht Key.metadata) m ∧
        FetchesSource z (findEntry z ht Key.sourceService) (fun _ => findEntry z ht Key.metadata) s ∧
        req = getInstancesRequestOf (decoded z ht) m s timeout flowId := by
  simp only [getInstancesRequest, zArrvalP_array, bind_eq_ok, Except.ok.injEq, exists_eq_left', pure_eq_ok,
    transferToStdMap_eq_ok hs.of_array, transferIf_eq_ok (soundAt_findEntry hs z _),
    transferSource_eq_ok (soundAt_findEntry hs z _) fun _ _ => soundAt_findEntry hs z _,
    and_assoc, exists_and_left, exists_eq_left]

theorem getAllInstancesRequest_eq_ok {req : GetInstancesRequest} :
    getAllInstancesRequest z (.array ht) timeout flowId = .ok req ↔
      Decodable z ht ∧ ∃ m s, Fetches z (findEntry z ht Key.metadata) (findEntry z ht Key.metadata) m ∧
        FetchesSource z (findEntry z ht Key.sourceService) (findEntry z · Key.metadata) s ∧
        req = getAllInstancesRequestOf (decoded z ht) m s timeout flowId := by
  simp only [getAllInstancesRequest, zArrvalP_array, bind_eq_ok, Except.ok.injEq, exists_eq_left', pure_eq_ok,
    transferToStdMap_eq_ok hs.of_array, transferIf_eq_ok (soundAt_findEntry hs z _),
    transferSource_eq_ok (soundAt_findEntry hs z _) fun _ hv => soundAt_findEntry (soundAt_findEntry hs z _ _ hv) z _,
    and_assoc, exists_and_left, exists_eq_left]

theorem serviceCallResult_eq_ok {req : ServiceCallResult} :
    serviceCallResult z (.array ht) = .ok req ↔
      Decodable z ht ∧ ∃ s l,
        Fetches z (findEntry z ht Key.serviceSubSet) (findEntry z ht Key.serviceSubSet) s ∧
        Fetches z (findEntry z ht Key.labels) (findEntry z ht Key.labels) l ∧
        ((findEntry z ht Key.sourceService = none ∧ req = serviceCallResultOf (decoded z ht) s l) ∨
          ∃ src, findEntry z ht Key.sourceService = some (.array src) ∧ Decodable z src ∧
            req = { serviceCallResultOf (decoded z ht) s l with
              source := ⟨(decoded z src).sub Key.namespace_, (decoded z src).sub Key.service⟩ }) := by
  simp only [serviceCallResult, zArrvalP_array, bind_eq_ok, Except.ok.injEq, exists_eq_left',
    transferToStdMap_eq_ok hs.of_array, transferIf_eq_ok (soundAt_findEntry hs z _),
    and_assoc, exists_and_left, exists_eq_left]
  refine and_congr_right fun _ => exists_congr fun s => and_congr_right fun _ => exists_congr fun l =>
    and_congr_right fun _ => ?_
  cases hv : findEntry z ht Key.sourceService with
  | none => simp [pure_eq_ok]
  | some v =>
    simp only [bind_eq_ok, zArrvalP_eq_ok, pure_eq_ok, reduceCtorEq, false_and, false_or]
    refine exists_congr fun src => and_congr_right fun hsrc => ?_
    have hss := (soundAt_findEntry hs z Key.sourceService).array (hv.trans hsrc)
    simp only [transferToStdMap_eq_ok hss.of_array, and_assoc, exists_and_left, exists_eq_left]

theorem convertToQuotaRequest_eq_ok {req : QuotaRequest} :
    convertToQuotaRequest z (.array ht) = .ok req ↔
      Decodable z ht ∧ ∃ l s, Fetches z (findEntry z ht Key.labels) (findEntry z ht Key.labels) l ∧
        Fetches z (findEntry z ht Key.serviceSubSet) (findEntry z ht Key.serviceSubSet) s ∧
        req = quotaRequestOf (decoded z ht) l s := by
  simp only [convertToQuotaRequest, zArrvalP_array, bind_eq_ok, Except.ok.injEq, exists_eq_left', pure_eq_ok,
    transferToStdMap_eq_ok hs.of_array, transferIf_eq_ok (soundAt_findEntry hs z _), and_assoc, exists_and_left,
    exists_eq_left]

theorem limitCallResult_eq_ok {req : LimitCallResult} :
    limitCallResult z (.array ht) = .ok req ↔
      Decodable z ht ∧ ∃ l s, FetchesArray z (findEntry z ht Key.labels) l ∧
        Fetches z (findEntry z ht Key.serviceSubSet) (findEntry z ht Key.serviceSubSet) s ∧
        req = limitCallResultOf (decoded z ht) l s := by
  simp only [limitCallResult, zArrvalP_array, bind_eq_ok, Except.ok.injEq, exists_eq_left', pure_eq_ok,
    transferToStdMap_eq_ok hs.of_array, transferIf_eq_ok (soundAt_findEntry hs z _),
    transferArray_eq_ok (soundAt_findEntry hs z _), and_assoc, exists_and_left, exists_eq_left]

end Requests

/-! ## What is handed over -/

section Hands

variable {z : Zend} {sdk : Sdk} {reqVal : Zval} {timeout flowId : UInt64} {returnVal : HashTable}

theorem hands_registerInstance {req : InstanceRegisterRequest} :
    Hands (registerInstance z sdk reqVal timeout flowId returnVal) (.register req) ↔
      registerRequest z reqVal timeout flowId = .ok req :=
  hands_invoke (fun _ _ => SdkCall.register.inj) req

theorem hands_doInitService {req : GetOneInstanceRequest} :
    Hands (doInitService z sdk reqVal timeout flowId returnVal) (.initService req) ↔
      initServiceRequest z reqVal timeout flowId = .ok req :=
  hands_invoke (fun _ _ => SdkCall.initService.inj) req

theorem hands_doGetOneInstance {req : GetOneInstanceRequest} :
    Hands (doGetOneInstance z sdk reqVal timeout flowId returnVal) (.getOneInstance req) ↔
      getOneInstanceRequest z reqVal timeout flowId = .ok req :=
  hands_invoke (fun _ _ => SdkCall.getOneInstance.inj) req

theorem hands_doGetInstances {req : GetInstancesRequest} :
    Hands (doGetInstances z sdk reqVal timeout flowId returnVal) (.getInstances req) ↔
      getInstancesRequest z reqVal timeout flowId = .ok req :=
  hands_invoke (fun _ _ => SdkCall.getInstances.inj) req

theorem hands_doGetAllInstances {req : GetInstancesRequest} :
    Hands (doGetAllInstances z sdk reqVal timeout flowId returnVal) (.getAllInstances req) ↔
      getAllInstancesRequest z reqVal timeout flowId = .ok req :=
  hands_invoke (fun _ _ => SdkCall.getAllInstances.inj) req

theorem hands_doUpdateServiceCallResult {req : ServiceCallResult} :
    Hands (doUpdateServiceCallResult z sdk reqVal timeout flowId returnVal) (.updateServiceCallResult req) ↔
      serviceCallResult z reqVal = .ok req :=
  hands_invoke (fun _ _ => SdkCall.updateServiceCallResult.inj) req

theorem hands_doGetQuota {req : QuotaRequest} :
    Hands (doGetQuota z sdk reqVal returnVal) (.getQuota req) ↔
      convertToQuotaRequest z reqVal = .ok req :=
  hands_invoke (fun _ _ => SdkCall.getQuota.inj) req

theorem hands_doUpdateCallResult {req : LimitCallResult} :
    Hands (doUpdateCallResult z sdk reqVal returnVal) (.updateCallResult req) ↔
      limitCallResult z reqVal = .ok req :=
  hands_invoke (fun _ _ => SdkCall.updateCallResult.inj) req

theorem hands_doInitQuotaWindow {req : QuotaRequest} :
    Hands (doInitQuotaWindow z sdk reqVal returnVal) (.initQuotaWindow req) ↔
      convertToQuotaRequest z reqVal = .ok req :=
  hands_invoke (fun _ _ => SdkCall.initQuotaWindow.inj) req

end Hands

/-! ## What keeps a request from being built -/

section BadReads

variable (z : Zend)

theorem badRead_zstrVal (k : ZKey) : FailsOnly (·.badRead) (zstrVal k) := by
  cases k with
  | index n => exact FailsOnly.error rfl
  | name s => exact FailsOnly.ok s

theorem badRead_zStrval (v : Zval) : FailsOnly (·.badRead) (zStrval z v) := by
  unfold zStrval
  split
  · exact FailsOnly.ok _
  · split
    · exact FailsOnly.ok _
    · exact FailsOnly.error rfl

theorem badRead_zArrvalP (v : Option Zval) : FailsOnly (·.badRead) (zArrvalP v) := by
  unfold zArrvalP
  split
  · exact FailsOnly.ok _
  · exact FailsOnly.error rfl
  · exact FailsOnly.error rfl

theorem badRead_transferToStdMap (ht : HashTable) : FailsOnly (·.badRead) (transferToStdMap z ht) := by
  unfold transferToStdMap
  split
  · exact FailsOnly.ok _
  · refine FailsOnly.foldlM (fun m b => ?_) _ _
    split
    · exact FailsOnly.pure _
    · exact (badRead_zstrVal _).bind fun _ => (badRead_zStrval z _).bind fun _ => FailsOnly.pure _

theorem badRead_transferIf (val src : Option Zval) : FailsOnly (·.badRead) (transferIf z val src) := by
  cases val with
  | none => exact FailsOnly.pure _
  | some v => exact (badRead_zArrvalP src).bind (badRead_transferToStdMap z)

theorem badRead_transferSource (val : Option Zval) (srcmeta : HashTable → Option Zval) :
    FailsOnly (·.badRead) (transferSource z val srcmeta) := by
  cases val with
  | none => exact FailsOnly.pure _
  | some v =>
    exact (badRead_zArrvalP _).bind fun _ => (badRead_transferToStdMap z _).bind fun _ =>
      (badRead_transferIf z _ _).bind fun _ => FailsOnly.pure _

theorem badRead_transferArray (val : Option Zval) : FailsOnly (·.badRead) (transferArray z val) := by
  unfold transferArray
  split
  · exact badRead_transferToStdMap z _
  · exact FailsOnly.pure _
  · exact FailsOnly.pure _

variable (reqVal : Zval) (timeout flowId : UInt64)

theorem badRead_registerRequest : FailsOnly (·.badRead) (registerRequest z reqVal timeout flowId) :=
  (badRead_zArrvalP _).bind fun _ => (badRead_transferToStdMap z _).bind fun _ =>
    (badRead_transferIf z _ _).bind fun _ => FailsOnly.pure _

theorem badRead_deregisterRequest : FailsOnly (·.badRead) (deregisterRequest z reqVal timeout flowId) :=
  (badRead_zArrvalP _).bind fun _ => (badRead_transferToStdMap z _).bind fun _ => FailsOnly.pure _

theorem badRead_heartbeatRequest : FailsOnly (·.badRead) (heartbeatRequest z reqVal) :=
  (badRead_zArrvalP _).bind fun _ => (badRead_transferToStdMap z _).bind fun _ => FailsOnly.pure _

theorem badRead_initServiceRequest : FailsOnly (·.badRead) (initServiceRequest z reqVal timeout flowId) :=
  (badRead_zArrvalP _).bind fun _ => (badRead_transferToStdMap z _).bind fun _ =>
    (badRead_transferIf z _ _).bind fun _ => (badRead_transferIf z _ _).bind fun _ =>
      (badRead_transferSource z _ _).bind fun _ => FailsOnly.pure _

theorem badRead_getOneInstanceRequest : FailsOnly (·.badRead) (getOneInstanceRequest z reqVal timeout flowId) :=
  (badRead_zArrvalP _).bind fun _ => (badRead_transferToStdMap z _).bind fun _ =>
    (badRead_transferIf z _ _).bind fun _ => (badRead_transferIf z _ _).bind fun _ =>
      (badRead_transferSource z _ _).bind fun _ => FailsOnly.pure _

theorem badRead_getInstancesRequest : FailsOnly (·.badRead) (getInstancesRequest z reqVal timeout flowId) :=
  (badRead_zArrvalP _).bind fun _ => (badRead_transferToStdMap z _).bind fun _ =>
    (badRead_transferIf z _ _).bind fun _ => (badRead_transferSource z _ _).bind fun _ => FailsOnly.pure _

theorem badRead_getAllInstancesRequest : FailsOnly (·.badRead) (getAllInstancesRequest z reqVal timeout flowId) :=
  (badRead_zArrvalP _).bind fun _ => (badRead_transferToStdMap z _).bind fun _ =>
    (badRead_transferIf z _ _).bind fun _ => (badRead_transferSource z _ _).bind fun _ => FailsOnly.pure _

theorem badRead_serviceCallResult : FailsOnly (·.badRead) (serviceCallResult z reqVal) := by
  refine (badRead_zArrvalP _).bind fun _ => (badRead_transferToStdMap z _).bind fun _ =>
    (badRead_transferIf z _ _).bind fun _ => (badRead_transferIf z _ _).bind fun _ => ?_
  dsimp only
  split
  · exact FailsOnly.pure _
  · exact (badRead_zArrvalP _).bind fun _ => (badRead_transferToStdMap z _).bind fun _ => FailsOnly.pure _

theorem badRead_convertToQuotaRequest : FailsOnly (·.badRead) (convertToQuotaRequest z reqVal) :=
  (badRead_zArrvalP _).bind fun _ => (badRead_transferToStdMap z _).bind fun _ =>
    (badRead_transferIf z _ _).bind fun _ => (badRead_transferIf z _ _).bind fun _ => FailsOnly.pure _

theorem badRead_limitCallResult : FailsOnly (·.badRead) (limitCallResult z reqVal) :=
  (badRead_zArrvalP _).bind fun _ => (badRead_transferToStdMap z _).bind fun _ =>
    (badRead_transferArray z _).bind fun _ => (badRead_transferIf z _ _).bind fun _ => FailsOnly.pure _

end BadReads

end PolarisPhp
