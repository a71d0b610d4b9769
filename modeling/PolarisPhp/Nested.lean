/-
Nested maps under the key lengths of Zend 7.4. The table compares a key's
length without the NUL that ends it, and the extension looks a name up with
that NUL counted in; so what it finds is the entry of another key, the name
with a NUL byte after it. An operation therefore carries a nested map to
the SDK exactly when the array holds the same map under that key too
(`nothingLost_iff`): for arrays no key of which holds a NUL, when there is
nothing to carry.
-/
import PolarisPhp.Requests

namespace PolarisPhp

open Bytes

/-- The map the array nested under `k` stands for, empty when there is none. -/
def entriesAt (ht : HashTable) (k : Bytes) : StdMap :=
  match ht.find? (.name k) with
  | some (.array sub) => strMap sub
  | some _ | none => ∅

/-- The service a map of a source's entries names. -/
def serviceOf (m : StdMap) : ServiceKey := ⟨m.sub Key.namespace_, m.sub Key.service⟩

/-! ## The requests -/

/-- The operations that carry nested maps to the SDK. -/
inductive NestingOp where
  | register
  | updateServiceCallResult
  | getQuota
  | initQuotaWindow
  | updateCallResult
  deriving DecidableEq

def NestingOp.nestedKeys : NestingOp → List Bytes
  | .register => [Key.metadata]
  | .updateServiceCallResult => [Key.labels, Key.serviceSubSet, Key.sourceService]
  | .getQuota | .initQuotaWindow | .updateCallResult => [Key.labels, Key.serviceSubSet]

/-- The nested entries, where there are any, are arrays of NUL-free strings. -/
def NestedMaps (ht : HashTable) (op : NestingOp) : Prop :=
  ∀ k ∈ op.nestedKeys, ∀ v, ht.find? (.name k) = some v → ∃ sub, v = .array sub ∧ StringMap sub

/-- The operation hands the SDK a request that carries every nested entry. -/
def NothingLost (z : Zend) (sdk : Sdk) (ht : HashTable) (timeout flowId : UInt64) (returnVal : HashTable) :
    NestingOp → Prop
  | .register => ∃ req, Hands (registerInstance z sdk (.array ht) timeout flowId returnVal) (.register req) ∧
      req.metadata = entriesAt ht Key.metadata
  | .updateServiceCallResult => ∃ req,
      Hands (doUpdateServiceCallResult z sdk (.array ht) timeout flowId returnVal) (.updateServiceCallResult req) ∧
      req.labels = entriesAt ht Key.labels ∧ req.subset = entriesAt ht Key.serviceSubSet ∧
      req.source = serviceOf (entriesAt ht Key.sourceService)
  | .getQuota => ∃ req, Hands (doGetQuota z sdk (.array ht) returnVal) (.getQuota req) ∧
      req.labels = entriesAt ht Key.labels ∧ req.subset = entriesAt ht Key.serviceSubSet
  | .initQuotaWindow => ∃ req, Hands (doInitQuotaWindow z sdk (.array ht) returnVal) (.initQuotaWindow req) ∧
      req.labels = entriesAt ht Key.labels ∧ req.subset = entriesAt ht Key.serviceSubSet
  | .updateCallResult => ∃ req, Hands (doUpdateCallResult z sdk (.array ht) returnVal) (.updateCallResult req) ∧
      req.labels = entriesAt ht Key.labels ∧ req.subset = entriesAt ht Key.serviceSubSet

/-! ## What the lookup finds instead -/

/-- Under `k` with a NUL after it the array holds the entries it holds under `k`. -/
def Mirrored (z : Zend) (ht : HashTable) (k : Bytes) : Prop :=
  match ht.find? (.name (cStr k)) with
  | none => entriesAt ht k = ∅
  | some (.array sub) => Decodable z sub ∧ decoded z sub = entriesAt ht k
  | some _ => False

/-- As `Mirrored`, where a value that is no array is passed over. -/
def MirroredIfArray (z : Zend) (ht : HashTable) (k : Bytes) : Prop :=
  match ht.find? (.name (cStr k)) with
  | some (.array sub) => Decodable z sub ∧ decoded z sub = entriesAt ht k
  | some _ | none => entriesAt ht k = ∅

/-- As `Mirrored`, for the namespace and the name of a source. -/
def MirroredService (z : Zend) (ht : HashTable) (k : Bytes) : Prop :=
  match ht.find? (.name (cStr k)) with
  | none => serviceOf (entriesAt ht k) = ⟨[], []⟩
  | some (.array sub) => Decodable z sub ∧ serviceOf (decoded z sub) = serviceOf (entriesAt ht k)
  | some _ => False

/-- Every nested entry of the request is mirrored. -/
def AllMirrored (z : Zend) (ht : HashTable) : NestingOp → Prop
  | .register => Mirrored z ht Key.metadata
  | .updateServiceCallResult =>
    Mirrored z ht Key.labels ∧ Mirrored z ht Key.serviceSubSet ∧ MirroredService z ht Key.sourceService
  | .getQuota | .initQuotaWindow => Mirrored z ht Key.labels ∧ Mirrored z ht Key.serviceSubSet
  | .updateCallResult => MirroredIfArray z ht Key.labels ∧ Mirrored z ht Key.serviceSubSet

section WithoutNul

variable {z : Zend} (h74 : z.keyLength = .withoutNul) {ht : HashTable} (k : Bytes)
include h74

theorem findEntry_withoutNul : findEntry z ht k = ht.find? (.name (cStr k)) := by
  simp [findEntry_eq, Zend.lookupName, h74]

theorem fetches_mirrored : Fetches z (findEntry z ht k) (findEntry z ht k) (entriesAt ht k) ↔ Mirrored z ht k := by
  rw [findEntry_withoutNul h74, Mirrored, Fetches]
  split
  · simp_all
  · rename_i sub hv
    simp [hv, eq_comm]
  · rename_i v hv hn
    have hna : ∀ sub, v ≠ .array sub := fun sub h => hv sub h
    simp [hn, hna]

theorem fetchesArray_mirrored : FetchesArray z (findEntry z ht k) (entriesAt ht k) ↔ MirroredIfArray z ht k := by
  rw [findEntry_withoutNul h74, MirroredIfArray, FetchesArray]
  split
  · rename_i sub hv
    simp [hv, eq_comm]
  · rename_i v hv hn
    have hna : ∀ sub, v ≠ .array sub := fun sub h => hv sub h
    simp [hn, hna]
  · simp_all

end WithoutNul

/-! ## The operations -/

section Operations

variable {z : Zend} (h74 : z.keyLength = .withoutNul) {sdk : Sdk} {ht : HashTable}
  (hs : Zval.Sound (.array ht)) {timeout flowId : UInt64} {returnVal : HashTable}
include h74 hs

theorem nothingLost_register :
    NothingLost z sdk ht timeout flowId returnVal .register ↔ Decodable z ht ∧ AllMirrored z ht .register := by
  simp only [NothingLost, hands_registerInstance, registerRequest_eq_ok hs, AllMirrored,
    ← fetches_mirrored h74]
  refine ⟨fun h => ?_, fun h => ?_⟩
  · obtain ⟨_, ⟨hd, m, hm, rfl⟩, rfl⟩ := h
    exact ⟨hd, hm⟩
  · obtain ⟨hd, hm⟩ := h
    exact ⟨_, ⟨hd, _, hm, rfl⟩, rfl⟩

theorem convertToQuotaRequest_mirrored :
    (∃ req, convertToQuotaRequest z (.array ht) = .ok req ∧
      req.labels = entriesAt ht Key.labels ∧ req.subset = entriesAt ht Key.serviceSubSet) ↔
      Decodable z ht ∧ Mirrored z ht Key.labels ∧ Mirrored z ht Key.serviceSubSet := by
  simp only [convertToQuotaRequest_eq_ok hs, ← fetches_mirrored h74]
  refine ⟨fun h => ?_, fun h => ?_⟩
  · obtain ⟨_, ⟨hd, l, s, hl, hsub, rfl⟩, rfl, rfl⟩ := h
    exact ⟨hd, hl, hsub⟩
  · obtain ⟨hd, hl, hsub⟩ := h
    exact ⟨_, ⟨hd, _, _, hl, hsub, rfl⟩, rfl, rfl⟩

theorem nothingLost_updateCallResult :
    NothingLost z sdk ht timeout flowId returnVal .updateCallResult ↔
      Decodable z ht ∧ AllMirrored z ht .updateCallResult := by
  simp only [NothingLost, hands_doUpdateCallResult, limitCallResult_eq_ok hs, AllMirrored,
    ← fetches_mirrored h74, ← fetchesArray_mirrored h74]
  refine ⟨fun h => ?_, fun h => ?_⟩
  · obtain ⟨_, ⟨hd, l, s, hl, hsub, rfl⟩, rfl, rfl⟩ := h
    exact ⟨hd, hl, hsub⟩
  · obtain ⟨hd, hl, hsub⟩ := h
    exact ⟨_, ⟨hd, _, _, hl, hsub, rfl⟩, rfl, rfl⟩

theorem nothingLost_updateServiceCallResult :
    NothingLost z sdk ht timeout flowId returnVal .updateServiceCallResult ↔
      Decodable z ht ∧ AllMirrored z ht .updateServiceCallResult := by
  simp only [NothingLost, hands_doUpdateServiceCallResult, serviceCallResult_eq_ok hs, AllMirrored,
    ← fetches_mirrored h74, MirroredService, ← findEntry_withoutNul h74]
  refine ⟨fun h => ?_, fun h => ?_⟩
  · obtain ⟨req, ⟨hd, s, l, hsub, hl, hsrc⟩, hrl, hrs, hrq⟩ := h
    rcases hsrc with ⟨hn, rfl⟩ | ⟨src, hv, hds, rfl⟩
    · refine ⟨hd, hrl ▸ hl, hrs ▸ hsub, ?_⟩
      rw [hn]
      exact hrq.symm
    · refine ⟨hd, hrl ▸ hl, hrs ▸ hsub, ?_⟩
      rw [hv]
      exact ⟨hds, hrq⟩
  · obtain ⟨hd, hl, hsub, hsrc⟩ := h
    split at hsrc
    · rename_i hn
      exact ⟨_, ⟨hd, _, _, hsub, hl, .inl ⟨hn, rfl⟩⟩, rfl, rfl, hsrc.symm⟩
    · rename_i src hv
      exact ⟨_, ⟨hd, _, _, hsub, hl, .inr ⟨src, hv, hsrc.1, rfl⟩⟩, rfl, rfl, hsrc.2⟩
    · exact hsrc.elim

end Operations

/-- Where no key holds a NUL, a mirrored entry is one without contents. -/
theorem mirrored_of_namesNulFree {z : Zend} {ht : HashTable} (h : NamesNulFree ht) (k : Bytes) :
    Mirrored z ht k ↔ entriesAt ht k = ∅ := by
  simp [Mirrored, h.find?_cStr k]

/-- **No nested map is lost** exactly when the array can be read and holds,
under the name of each nested entry with a NUL after it, the same entries
once more. -/
theorem nothingLost_iff {z : Zend} (h74 : z.keyLength = .withoutNul) (sdk : Sdk) {ht : HashTable}
    (hs : Zval.Sound (.array ht)) (timeout flowId : UInt64) (returnVal : HashTable) (op : NestingOp) :
    NothingLost z sdk ht timeout flowId returnVal op ↔ Decodable z ht ∧ AllMirrored z ht op := by
  cases op with
  | register => exact nothingLost_register h74 hs
  | updateServiceCallResult => exact nothingLost_updateServiceCallResult h74 hs
  | getQuota =>
    simp only [NothingLost, hands_doGetQuota]
    exact convertToQuotaRequest_mirrored h74 hs
  | initQuotaWindow =>
    simp only [NothingLost, hands_doInitQuotaWindow]
    exact convertToQuotaRequest_mirrored h74 hs
  | updateCallResult => exact nothingLost_updateCallResult h74 hs

/-! ## A registration -/

/-- `["env" => "prod"]`. -/
def envProd : HashTable := arrayLiteral [(lit "env", .str (lit "prod"))]

theorem sound_envProd : Zval.Sound (.array envProd) := sound_arrayLiteral_str (by simp)

/-- An instance with metadata. -/
def instanceInfo : HashTable :=
  arrayLiteral [(Key.namespace_, .str (lit "default")), (Key.service, .str (lit "cart")),
    (Key.metadata, .array envProd)]

theorem sound_instanceInfo : Zval.Sound (.array instanceInfo) := by
  refine sound_arrayLiteral fun p hp => ?_
  simp only [List.mem_cons, List.not_mem_nil, or_false] at hp
  rcases hp with rfl | rfl | rfl
  · exact .str
  · exact .str
  · exact sound_envProd

theorem stringMap_envProd : StringMap envProd := by
  intro b hb
  rw [show envProd.live = [(.name (lit "env"), .str (lit "prod"))] from rfl, List.mem_singleton] at hb
  exact ⟨_, _, hb, by decide, by decide⟩

/-- The registration reaches the SDK without its metadata. -/
theorem nothingLost_instanceInfo :
    ¬ ∀ (z : Zend) (sdk : Sdk) (ht : HashTable) (timeout flowId : UInt64) (returnVal : HashTable) (op : NestingOp),
      z.keyLength = .withoutNul → Zval.Sound (.array ht) → NestedMaps ht op →
        NothingLost z sdk ht timeout flowId returnVal op := by
  intro h
  have hmaps : NestedMaps instanceInfo .register := by
    intro k hk v hv
    rw [List.mem_singleton.mp hk, show instanceInfo.find? (.name Key.metadata) = some (.array envProd) from rfl] at hv
    exact ⟨envProd, (Option.some.inj hv).symm, stringMap_envProd⟩
  have hl := h (Zend.reading .withoutNul (some [])) Sdk.idle instanceInfo 500 1 Table.empty .register rfl
    sound_instanceInfo hmaps
  have hm := ((nothingLost_register rfl sound_instanceInfo).mp hl).2
  have hmeta : entriesAt instanceInfo Key.metadata = ∅ := hm
  have henv : (entriesAt instanceInfo Key.metadata)[lit "env"]? = some (lit "prod") := by decide
  simp [hmeta] at henv

/-- An instance whose metadata stand under the name with a NUL after it too. -/
def mirroredInfo : HashTable :=
  arrayLiteral [(Key.service, .str (lit "cart")), (Key.metadata, .array envProd), (cStr Key.metadata, .array envProd)]

def mirroredKeys : List Bytes := [Key.service, Key.metadata, cStr Key.metadata]

theorem plain_mirroredKeys : mirroredKeys.Nodup ∧ ∀ k ∈ mirroredKeys, symtableKey k = .name k := by decide

/-- It loses none of them. -/
theorem nothingLost_mirrored :
    NothingLost (Zend.native .withoutNul) Sdk.idle mirroredInfo 500 1 Table.empty .register ∧
      (entriesAt mirroredInfo Key.metadata)[lit "env"]? = some (lit "prod") := by
  have hs : Zval.Sound (.array mirroredInfo) := sound_arrayLiteral (by simp [Zval.Sound.str, sound_envProd])
  have hd : Decodable (Zend.native .withoutNul) mirroredInfo :=
    (decodable_arrayLiteral_iff mirroredKeys rfl plain_mirroredKeys).mpr (by simp [zStrval, Zend.native])
  have hmirror : mirroredInfo.find? (.name (cStr Key.metadata)) = some (.array envProd) :=
    find?_arrayLiteral mirroredKeys rfl plain_mirroredKeys (by simp)
  have hentries : entriesAt mirroredInfo Key.metadata = strMap envProd := by
    rw [entriesAt, mirroredInfo, find?_arrayLiteral (v := .array envProd) mirroredKeys rfl plain_mirroredKeys (by simp)]
  refine ⟨(nothingLost_iff rfl Sdk.idle hs 500 1 Table.empty .register).mpr ⟨hd, ?_⟩, by decide⟩
  rw [AllMirrored, Mirrored, hmirror]
  exact ⟨stringMap_envProd.decodable, by rw [stringMap_envProd.decoded_eq, hentries]⟩

end PolarisPhp
