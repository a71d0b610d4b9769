/-
Which arrays the methods decode without a bad read. No decoder tests the
type of a bucket's key or value, and one nested entry apart none tests that
it is an array before it descends; so a method is safe on an array exactly
when every entry is a string under a string key and no nested entry it
looks for is there (`safe_iff`). The documented requests nest arrays in
what is read as strings first.
-/
import PolarisPhp.Discovery
import PolarisPhp.Operations

namespace PolarisPhp

open Bytes Fallible

/-- Every entry is a string under a string key. -/
def Strings (ht : HashTable) : Prop := ∀ b ∈ ht.live, ∃ s t, b = (.name s, .str t)

/-- The nested entries an operation descends into without testing their type. -/
def Operation.untested : Operation → List Bytes
  | .register => [Key.metadata]
  | .deregister | .heartbeat => []
  | .initService | .getOneInstance => [Key.metadata, Key.labels, Key.sourceService]
  | .getInstances | .getAllInstances => [Key.metadata, Key.sourceService]
  | .updateServiceCallResult => [Key.serviceSubSet, Key.labels, Key.sourceService]
  | .getQuota | .initQuotaWindow => [Key.labels, Key.serviceSubSet]
  | .updateCallResult => [Key.serviceSubSet]

/-- The array a method is given passes the specifier `a`. -/
def Method.Accepts (z : Zend) (args : List Zval) (ht : HashTable) : Method → Prop
  | .construct => parseA args = .success (.array ht)
  | .operation op => ∃ timeout flowId, op.parse z args = .success (.array ht, timeout, flowId)
  | .initProvider | .initConsumer | .initLimit => False

/-- No run from `w` ends in a bad read. -/
def Safe {α : Type} (x : Exec α) (w : World) : Prop := ∀ e w', x.run w = .error e w' → ¬ e.badRead

/-- The arrays a method decodes without a bad read. -/
def Method.SafeOn (z : Zend) (obj : PolarisCoreObject) (ht : HashTable) : Method → Prop
  | .construct => Strings ht
  | .operation op => op.api obj = none ∨
      Strings ht ∧ ∀ k ∈ op.untested, ht.find? (.name (z.lookupName k)) = none
  | .initProvider | .initConsumer | .initLimit => True

/-! ## Reading strings only -/

section Strict

variable {z : Zend} (hz : ∀ v, z.strval v = none) {ht : HashTable}

include hz in
theorem decodable_iff_strings : Decodable z ht ↔ Strings ht := by
  refine forall₂_congr fun b _ => ?_
  obtain ⟨k, v⟩ := b
  refine ⟨fun h => ?_, fun h => ?_⟩
  · obtain ⟨⟨s, rfl⟩, t, hv⟩ := h
    cases v with
    | str t' => exact ⟨s, t', rfl⟩
    | null | bool | long | double | array | object | resource | reference => simp [zStrval, hz] at hv
  · obtain ⟨s, t, he⟩ := h
    cases he
    exact ⟨⟨s, rfl⟩, t, rfl⟩

theorem Strings.findEntry (h : Strings ht) {k : Bytes} {v : Zval} (hf : findEntry z ht k = some v) :
    ∃ t, v = .str t := by
  rw [findEntry_eq] at hf
  obtain ⟨s, t, he⟩ := h _ (Table.mem_of_find? hf)
  cases he
  exact ⟨t, rfl⟩

theorem Strings.not_array (h : Strings ht) (k : Bytes) (sub : HashTable) :
    PolarisPhp.findEntry z ht k ≠ some (.array sub) := by
  intro hf
  obtain ⟨t, he⟩ := h.findEntry hf
  cases he

theorem Strings.fetches (h : Strings ht) {k k' : Bytes} {m : StdMap} :
    Fetches z (PolarisPhp.findEntry z ht k) (PolarisPhp.findEntry z ht k') m ↔
      PolarisPhp.findEntry z ht k = none ∧ m = ∅ := by
  simp [Fetches, h.not_array]

theorem Strings.fetchesSource (h : Strings ht) {k : Bytes} {srcmeta : HashTable → Option Zval}
    {srcInfo : Option ServiceInfo} : FetchesSource z (PolarisPhp.findEntry z ht k) srcmeta srcInfo ↔
      PolarisPhp.findEntry z ht k = none ∧ srcInfo = none := by
  simp [FetchesSource, h.not_array]

theorem Strings.fetchesArray (h : Strings ht) {k : Bytes} {m : StdMap} :
    FetchesArray z (PolarisPhp.findEntry z ht k) m ↔ m = ∅ := by
  simp [FetchesArray, h.not_array]

end Strict

/-! ## The operations -/

theorem Strings.decodable {ht : HashTable} (h : Strings ht) (z : Zend) : Decodable z ht := by
  intro b hb
  obtain ⟨s, t, rfl⟩ := h b hb
  exact ⟨⟨s, rfl⟩, t, rfl⟩

/-- Of an array of strings an operation reads everything, unless it looks for a
nested entry and finds one. -/
theorem Strings.reads_iff {ht : HashTable} (h : Strings ht) (z : Zend) (op : Operation) :
    op.Reads z ht ↔ ∀ k ∈ op.untested, ht.find? (.name (z.lookupName k)) = none := by
  have hd : Decodable z ht := h.decodable z
  simp only [← findEntry_eq]
  cases op <;>
    simp [Operation.Reads, Operation.untested, hd, h.fetches, h.fetchesSource, h.fetchesArray, h.not_array]

/-- Where the key length leaves the NUL out, every operation reads the arrays
of strings under names without one. -/
theorem Strings.reads {z : Zend} {ht : HashTable} (h : Strings ht) (hn : NamesNulFree ht)
    (hk : z.keyLength = .withoutNul) (op : Operation) : op.Reads z ht := by
  refine (h.reads_iff z op).mpr fun k _ => ?_
  rw [Zend.lookupName, hk]
  exact hn.find?_cStr k

theorem strings_arrayLiteral {l : List (Bytes × Zval)} (keys : List Bytes) (hl : l.map Prod.fst = keys)
    (hk : keys.Nodup ∧ ∀ k ∈ keys, symtableKey k = .name k) (h : ∀ p ∈ l, ∃ t, p.2 = .str t) :
    Strings (arrayLiteral l) := by
  intro b hb
  rw [live_arrayLiteral keys hl hk] at hb
  obtain ⟨p, hp, rfl⟩ := List.mem_map.mp hb
  obtain ⟨t, ht⟩ := h p hp
  exact ⟨p.1, t, by rw [ht]⟩

/-- A request is built exactly on strings without the nested entries the
operation looks for. -/
theorem exists_serve_iff {z : Zend} (hz : ∀ v, z.strval v = none) {ht : HashTable} (hs : Zval.Sound (.array ht))
    (sdk : Sdk) (timeout flowId : UInt64) (op : Operation) :
    (∃ s, op.serve z sdk (.array ht) timeout flowId = .ok s) ↔
      Strings ht ∧ ∀ k ∈ op.untested, ht.find? (.name (z.lookupName k)) = none := by
  rw [exists_serve hs]
  refine ⟨fun h => ?_, fun h => ?_⟩
  · have hstr : Strings ht := (decodable_iff_strings hz).mp h.decodable
    exact ⟨hstr, (hstr.reads_iff z op).mp h⟩
  · exact (h.1.reads_iff z op).mpr h.2

/-! ## Bad reads and other ends -/

/-- What keeps an operation from being served is a bad read. -/
theorem badRead_serve (z : Zend) (sdk : Sdk) (reqVal : Zval) (timeout flowId : UInt64) (op : Operation) :
    FailsOnly (·.badRead) (op.serve z sdk reqVal timeout flowId) := by
  cases op with
  | register => exact (badRead_registerRequest z reqVal timeout flowId).bind fun _ => FailsOnly.pure _
  | deregister => exact (badRead_deregisterRequest z reqVal timeout flowId).bind fun _ => FailsOnly.pure _
  | heartbeat => exact (badRead_heartbeatRequest z reqVal).bind fun _ => FailsOnly.pure _
  | initService => exact (badRead_initServiceRequest z reqVal timeout flowId).bind fun _ => FailsOnly.pure _
  | getOneInstance => exact (badRead_getOneInstanceRequest z reqVal timeout flowId).bind fun _ => FailsOnly.pure _
  | getInstances => exact (badRead_getInstancesRequest z reqVal timeout flowId).bind fun _ => FailsOnly.pure _
  | getAllInstances => exact (badRead_getAllInstancesRequest z reqVal timeout flowId).bind fun _ => FailsOnly.pure _
  | updateServiceCallResult => exact (badRead_serviceCallResult z reqVal).bind fun _ => FailsOnly.pure _
  | getQuota | initQuotaWindow => exact (badRead_convertToQuotaRequest z reqVal).bind fun _ => FailsOnly.pure _
  | updateCallResult => exact (badRead_limitCallResult z reqVal).bind fun _ => FailsOnly.pure _

theorem instancesReply_fails (sdk : Sdk) (rv : HashTable) (o : Outcome InstancesResponse) :
    FailsOnly (¬ ·.badRead) (instancesReply sdk rv o) := by
  unfold instancesReply
  split
  · split
    · exact FailsOnly.ok _
    · exact FailsOnly.error (by decide)
    · exact FailsOnly.error (by decide)
  · exact FailsOnly.ok _

theorem quotaReply_fails (sdk : Sdk) (rv : HashTable) (o : Outcome QuotaResponse) :
    FailsOnly (¬ ·.badRead) (quotaReply sdk rv o) := by
  unfold quotaReply
  dsimp only
  split
  · split
    · exact FailsOnly.error (by decide)
    · exact FailsOnly.ok _
    · exact FailsOnly.error (by decide)
  · exact FailsOnly.ok _

/-- No reply is built with a bad read. -/
theorem reply_fails {z : Zend} {sdk : Sdk} {reqVal : Zval} {timeout flowId : UInt64} {op : Operation} {s : Served}
    (h : op.serve z sdk reqVal timeout flowId = .ok s) : FailsOnly (¬ ·.badRead) s.reply := by
  cases op <;> obtain ⟨req, -, hs⟩ := bind_eq_ok.mp h <;> cases hs
  case getOneInstance | getInstances | getAllInstances => exact instancesReply_fails _ _ _
  case getQuota => exact quotaReply_fails _ _ _
  all_goals exact FailsOnly.ok _

/-- A served operation ends without a bad read, and so does any other that
is not stopped by its request. -/
theorem safe_callOperation {z : Zend} {sdk : Sdk} {args : List Zval} {op : Operation} {reqVal : Zval}
    {timeout flowId : UInt64} (hp : op.parse z args = .success (reqVal, timeout, flowId)) (w : World) :
    Safe (callOperation z sdk args op) w ↔
      op.api w.obj = none ∨ ∃ s, op.serve z sdk reqVal timeout flowId = .ok s := by
  rw [(badRead_serve z sdk reqVal timeout flowId op).exists_ok_iff]
  unfold Safe
  rw [callOperation_cases, hp]
  dsimp only
  cases ha : op.api w.obj with
  | none => simp
  | some p =>
    cases hs : op.serve z sdk reqVal timeout flowId with
    | error e =>
      simp [serveResult]
    | ok s =>
      have hr := reply_fails hs
      simp only [serveResult, Served.result, reduceCtorEq, false_imp_iff, implies_true, or_true, iff_true]
      intro e w' he
      split at he
      · cases he
      · rename_i e' hre
        cases he
        exact hr _ hre

theorem safe_construct {z : Zend} {sdk : Sdk} {args : List Zval} {ht : HashTable} (hs : ht.Sound)
    (hp : parseA args = .success (.array ht)) (w : World) :
    Safe (construct z sdk args) w ↔ Decodable z ht := by
  unfold Safe
  rw [construct_cases, hp]
  dsimp only [zArrvalP_array, bind, Except.bind]
  by_cases hd : Decodable z ht
  · rw [transferToStdMap_ok hs hd]
    simp only [hd, iff_true, constructResult]
    intro e w' he
    split at he
    · split at he <;> cases he
      decide
    · cases he
      decide
  · obtain ⟨e, hb, he⟩ := transferToStdMap_error hs hd
    simp [he, hb, hd]

/-- **Decoding is safe** exactly on strings, and without the nested entries
the method looks for; or when the API object is missing. -/
theorem safe_iff {z : Zend} (hz : ∀ v, z.strval v = none) (sdk : Sdk) {args : List Zval} {ht : HashTable}
    (hs : Zval.Sound (.array ht)) (w : World) {m : Method} (ha : m.Accepts z args ht) :
    Safe (callMethod z sdk args m) w ↔ m.SafeOn z w.obj ht := by
  cases m with
  | construct => exact (safe_construct hs.of_array ha w).trans (decodable_iff_strings hz)
  | operation op =>
    obtain ⟨timeout, flowId, hp⟩ := ha
    exact (safe_callOperation hp w).trans (or_congr Iff.rfl (exists_serve_iff hz hs sdk timeout flowId op))
  | initProvider | initConsumer | initLimit => exact ha.elim

/-! ## A documented registration -/

/-- The documentation's own example of a registration nests an array. -/
theorem safe_instanceInfo :
    ¬ ∀ (z : Zend) (sdk : Sdk) (args : List Zval) (ht : HashTable) (w : World) (m : Method),
      (∀ v, z.strval v = none) → Zval.Sound (.array ht) → m.Accepts z args ht → Safe (callMethod z sdk args m) w := by
  intro h
  have hp : Operation.register.parse (Zend.reading .withoutNul none) [.array instanceInfo, .long 500, .long 1] =
      .success (.array instanceInfo, 500, 1) := rfl
  have hsafe := h (Zend.reading .withoutNul none) Sdk.idle _ instanceInfo
    { polarisCoreCreateHandler with obj := { provider := some 0 } } (.operation .register) (fun _ => rfl)
    sound_instanceInfo ⟨500, 1, hp⟩
  have hs := ((safe_callOperation hp _).mp hsafe).resolve_left (by simp [Operation.api])
  have hstr := ((exists_serve_iff (fun _ => rfl) sound_instanceInfo Sdk.idle 500 1 .register).mp hs).1
  have hmem : (ZKey.name Key.metadata, Zval.array envProd) ∈ instanceInfo.live := by
    rw [show instanceInfo.live = _ from live_arrayLiteral [Key.namespace_, Key.service, Key.metadata] rfl (by decide)]
    simp
  obtain ⟨s, t, he⟩ := hstr _ hmem
  cases he

/-- A registration of strings is decoded. -/
theorem safe_setRequest :
    Safe (callMethod (Zend.reading .withoutNul none) Sdk.idle [.array (setRequest (lit "gz.1")), .long 500, .long 1]
      (.operation .register)) { polarisCoreCreateHandler with obj := { provider := some 0 } } := by
  have ha : (Method.operation .register).Accepts (Zend.reading .withoutNul none)
      [.array (setRequest (lit "gz.1")), .long 500, .long 1] (setRequest (lit "gz.1")) := ⟨500, 1, rfl⟩
  refine (safe_iff (fun _ => rfl) Sdk.idle (sound_setRequest _) _ ha).mpr (.inr ⟨?_, ?_⟩)
  · intro b hb
    rw [live_setRequest] at hb
    simp only [List.mem_cons, List.not_mem_nil, or_false] at hb
    rcases hb with rfl | rfl <;> exact ⟨_, _, rfl⟩
  · intro k hk
    rw [List.mem_singleton.mp hk]
    rfl

end PolarisPhp
