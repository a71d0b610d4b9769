/-
The discovery requests. `DoInitService` and `DoGetOneInstance` decode a
request array as its documentation describes it only where the code's two
slips do not show: the set name it hands over is the name of the entry, and
the labels are read from the metadata (`faithful_iff`). `DoGetInstances`
reads the source's metadata from the request's own, so it agrees with
`DoGetAllInstances` exactly when the two are the same map
(`duplicates_iff`).
-/
import PolarisPhp.Nested

namespace PolarisPhp

open Bytes

/-! ## The documented request -/

/-- The entries documented as strings. -/
def scalarKeys : List Bytes :=
  [Key.namespace_, Key.service, Key.version, Key.vpcID, Key.canary, Key.sourceSetName, Key.ignoreHalfOpen,
    Key.hashString, Key.hashKey, Key.replicateIndex, Key.backupInstanceNum, Key.loadBalanceTypeStr,
    Key.metadataFailoverTypeStr]

/-- The strings documented for a source service. -/
def sourceKeys : List Bytes := [Key.namespace_, Key.service]

/-- Every entry is a NUL-free string under one of `scalars` or a map under one of `maps`. -/
def EntryOf (scalars maps : List Bytes) (k : Bytes) (v : Zval) : Prop :=
  (k ∈ scalars ∧ ∃ s, v = .str s ∧ NulFree s) ∨ (k ∈ maps ∧ ∃ sub, v = .array sub ∧ StringMap sub)

/-- The documented source service. -/
def DocumentedSource (ht : HashTable) : Prop :=
  ∀ b ∈ ht.live, ∃ k, b.1 = .name k ∧ EntryOf sourceKeys [Key.metadata] k b.2

/-- The documented request: any of its entries, each of its type. -/
def Documented (ht : HashTable) : Prop :=
  ∀ b ∈ ht.live, ∃ k, b.1 = .name k ∧ (EntryOf scalarKeys [Key.metadata, Key.labels] k b.2 ∨
    k = Key.sourceService ∧ ∃ sub, b.2 = .array sub ∧ DocumentedSource sub)

/-- The string under `k`, empty when there is none. -/
def strAt (ht : HashTable) (k : Bytes) : Bytes :=
  match ht.find? (.name k) with
  | some (.str s) => s
  | some _ | none => []

/-- The source service a request describes. -/
def sourceAt (ht : HashTable) : Option ServiceInfo :=
  match ht.find? (.name Key.sourceService) with
  | some (.array sub) => some {
      service_key_ := ⟨strAt sub Key.namespace_, strAt sub Key.service⟩
      metadata_ := entriesAt sub Key.metadata }
  | some _ | none => none

/-- The request an array describes: each attribute is the entry of its name. -/
def described (ht : HashTable) (timeout flowId : UInt64) : GetOneInstanceRequest where
  serviceKey := ⟨strAt ht Key.namespace_, strAt ht Key.service⟩
  flowId := some flowId
  timeout := some timeout
  canary := strAt ht Key.canary
  sourceSetName := strAt ht Key.sourceSetName
  ignoreHalfOpen := isTrue (strAt ht Key.ignoreHalfOpen)
  hashString := strAt ht Key.hashString
  hashKey := (Decimal.atol (strAt ht Key.hashKey)).toUInt64
  replicateIndex := Decimal.atoi (strAt ht Key.replicateIndex)
  backupInstanceNum := (Decimal.atoi (strAt ht Key.backupInstanceNum)).toUInt32
  loadBalanceType := convertToLoadBalanceType (strAt ht Key.loadBalanceTypeStr)
  metadataFailover := convertToMetadataFailoverType (strAt ht Key.metadataFailoverTypeStr)
  metadata := entriesAt ht Key.metadata
  labels := entriesAt ht Key.labels
  sourceService := sourceAt ht

/-- The operations that take a `GetOneInstanceRequest`. -/
inductive OneInstanceOp where
  | initService
  | getOneInstance
  deriving DecidableEq

/-- The operation hands the SDK the request the array describes. -/
def Faithful (z : Zend) (sdk : Sdk) (ht : HashTable) (timeout flowId : UInt64) (returnVal : HashTable) :
    OneInstanceOp → Prop
  | .initService =>
    Hands (doInitService z sdk (.array ht) timeout flowId returnVal) (.initService (described ht timeout flowId))
  | .getOneInstance =>
    Hands (doGetOneInstance z sdk (.array ht) timeout flowId returnVal)
      (.getOneInstance (described ht timeout flowId))

/-- The two bodies are copies of each other. -/
theorem initServiceRequest_eq (z : Zend) (reqVal : Zval) (timeout flowId : UInt64) :
    initServiceRequest z reqVal timeout flowId = getOneInstanceRequest z reqVal timeout flowId := rfl

/-! ## Reading a documented array -/

theorem nulFree_documented {k : Bytes} (h : k ∈ scalarKeys ++ [Key.metadata, Key.labels, Key.sourceService]) :
    NulFree k := by
  have hall : ∀ k ∈ scalarKeys ++ [Key.metadata, Key.labels, Key.sourceService], NulFree k := by decide
  exact hall k h

/-- Every Zend read of a nested array as a string gives something. -/
def Zend.ReadsArrays (z : Zend) : Prop := ∀ sub, ∃ s, z.strval (.array sub) = some s

theorem Zend.ReadsArrays.zStrval {z : Zend} (h : z.ReadsArrays) (sub : HashTable) :
    ∃ s, zStrval z (.array sub) = .ok s := by
  obtain ⟨s, hs⟩ := h sub
  exact ⟨s, by simp [PolarisPhp.zStrval, hs]⟩

section EntryOf

variable {scalars maps : List Bytes} {k : Bytes} {v : Zval}

theorem EntryOf.readable {z : Zend} (hz : z.ReadsArrays) (h : EntryOf scalars maps k v) :
    Readable z (.name k, v) := by
  rcases h with ⟨-, s, rfl, -⟩ | ⟨-, sub, rfl, -⟩
  · exact ⟨⟨k, rfl⟩, s, rfl⟩
  · exact ⟨⟨k, rfl⟩, hz.zStrval sub⟩

theorem EntryOf.str (h : EntryOf scalars maps k v) (hk : k ∉ maps) : ∃ s, v = .str s ∧ NulFree s := by
  rcases h with ⟨-, hs⟩ | ⟨hm, -⟩
  · exact hs
  · exact absurd hm hk

theorem EntryOf.map (h : EntryOf scalars maps k v) (hk : k ∉ scalars) : ∃ sub, v = .array sub ∧ StringMap sub := by
  rcases h with ⟨hm, -⟩ | ⟨-, hs⟩
  · exact absurd hm hk
  · exact hs

end EntryOf

section Tables

variable {ht : HashTable} {k : Bytes}

/-- A string entry without a NUL is read as it is. -/
theorem sub_decoded_eq_strAt {z : Zend} (hn : NamesNulFree ht)
    (h : ∀ v, ht.find? (.name k) = some v → ∃ s, v = .str s ∧ NulFree s) : (decoded z ht).sub k = strAt ht k := by
  rw [hn.sub_decoded, strAt]
  cases hf : ht.find? (.name k) with
  | none => rfl
  | some v =>
    obtain ⟨s, rfl, hs⟩ := h v hf
    simp [hs.cstr]

/-- A nested map, when there is one, is read as the map it stands for. -/
theorem fetches_find? {z : Zend} (h : ∀ v, ht.find? (.name k) = some v → ∃ sub, v = .array sub ∧ StringMap sub)
    {m : StdMap} : Fetches z (ht.find? (.name k)) (ht.find? (.name k)) m ↔ m = entriesAt ht k := by
  unfold entriesAt
  cases hf : ht.find? (.name k) with
  | none => simp [Fetches]
  | some v =>
    obtain ⟨sub, rfl, hm⟩ := h v hf
    simp [Fetches, hm.decodable, hm.decoded_eq]

end Tables

namespace DocumentedSource

variable {z : Zend} {ht : HashTable} (h : DocumentedSource ht)
include h

theorem namesNulFree : NamesNulFree ht := by
  intro b hb
  obtain ⟨k, hk, hv⟩ := h b hb
  refine ⟨k, hk, ?_⟩
  rcases hv with ⟨hm, -⟩ | ⟨hm, -⟩
  · simp only [sourceKeys, List.mem_cons, List.not_mem_nil, or_false] at hm
    rcases hm with rfl | rfl <;> decide
  · rw [List.mem_singleton.mp hm]
    decide

theorem decodable (hz : z.ReadsArrays) : Decodable z ht := by
  intro ⟨key, v⟩ hb
  obtain ⟨k, rfl, hv⟩ := h _ hb
  exact hv.readable hz

theorem entryOf {k : Bytes} {v : Zval} (hf : ht.find? (.name k) = some v) :
    EntryOf sourceKeys [Key.metadata] k v := by
  obtain ⟨k', hk, hv⟩ := h _ (Table.mem_of_find? hf)
  cases hk
  exact hv

end DocumentedSource

namespace Documented

variable {z : Zend} {ht : HashTable} (h : Documented ht)
include h

theorem namesNulFree : NamesNulFree ht := by
  intro b hb
  obtain ⟨k, hk, hv⟩ := h b hb
  refine ⟨k, hk, nulFree_documented ?_⟩
  rcases hv with (⟨hm, -⟩ | ⟨hm, -⟩) | ⟨rfl, -⟩
  · exact List.mem_append_left _ hm
  · exact List.mem_append_right _ (List.mem_append_left [Key.sourceService] hm)
  · decide

theorem decodable (hz : z.ReadsArrays) : Decodable z ht := by
  intro ⟨key, v⟩ hb
  obtain ⟨k, rfl, hv⟩ := h _ hb
  rcases hv with he | ⟨rfl, sub, rfl, -⟩
  · exact he.readable hz
  · exact ⟨⟨_, rfl⟩, hz.zStrval sub⟩

theorem entryOf {k : Bytes} (hk : k ≠ Key.sourceService) {v : Zval} (hf : ht.find? (.name k) = some v) :
    EntryOf scalarKeys [Key.metadata, Key.labels] k v := by
  obtain ⟨k', hk', hv⟩ := h _ (Table.mem_of_find? hf)
  cases hk'
  exact hv.resolve_right fun hs => hk hs.1

theorem source {v : Zval} (hf : ht.find? (.name Key.sourceService) = some v) :
    ∃ sub, v = .array sub ∧ DocumentedSource sub := by
  obtain ⟨k', hk', hv⟩ := h _ (Table.mem_of_find? hf)
  cases hk'
  rcases hv with (⟨hm, -⟩ | ⟨hm, -⟩) | ⟨-, hs⟩
  · exact absurd hm (by decide)
  · exact absurd hm (by decide)
  · exact hs

theorem sub_decoded {k : Bytes} (hk : k ∈ scalarKeys) : (decoded z ht).sub k = strAt ht k := by
  have hdisj : ∀ k ∈ scalarKeys, k ≠ Key.sourceService ∧ k ∉ [Key.metadata, Key.labels] := by decide
  exact sub_decoded_eq_strAt h.namesNulFree fun v hf => (h.entryOf (hdisj k hk).1 hf).str (hdisj k hk).2

theorem maps {k : Bytes} (hk : k ∈ [Key.metadata, Key.labels]) (v : Zval) (hf : ht.find? (.name k) = some v) :
    ∃ sub, v = .array sub ∧ StringMap sub := by
  have hdisj : ∀ k ∈ [Key.metadata, Key.labels], k ≠ Key.sourceService ∧ k ∉ scalarKeys := by decide
  exact (h.entryOf (hdisj k hk).1 hf).map (hdisj k hk).2

theorem requestOf_eq_described {m l : StdMap} {s : Option ServiceInfo} {timeout flowId : UInt64} :
    getOneInstanceRequestOf (decoded z ht) m l s timeout flowId = described ht timeout flowId ↔
      strAt ht Key.sourceSetName = Key.sourceSetName ∧ m = entriesAt ht Key.metadata ∧
        l = entriesAt ht Key.labels ∧ s = sourceAt ht := by
  have hsub : ∀ k ∈ scalarKeys, (decoded z ht).sub k = strAt ht k := fun k hk => h.sub_decoded hk
  simp only [scalarKeys, List.forall_mem_cons, List.not_mem_nil, false_imp_iff, implies_true, and_true] at hsub
  obtain ⟨h1, h2, -, -, h3, -, h4, h5, h6, h7, h8, h9, h10⟩ := hsub
  simp only [getOneInstanceRequestOf, described, h1, h2, h3, h4, h5, h6, h7, h8, h9, h10,
    GetOneInstanceRequest.mk.injEq, true_and, and_true]
  refine ⟨fun hx => ?_, fun hx => ?_⟩
  · obtain ⟨hs, hset, hl, hm⟩ := hx
    exact ⟨hset.symm, hm, hl, hs⟩
  · obtain ⟨hset, hm, hl, hs⟩ := hx
    exact ⟨hs, hset.symm, hl, hm⟩

end Documented

/-! ## Faithful requests -/

/-- Where the decoder's reading of a documented request is the described
one: its set name is the literal name of the entry, and its maps are where
the code looks for them. With the NUL counted that leaves the labels, which
must be there only where the metadata are, and the same; without, no map is
found. -/
def DecodedAsDescribed (z : Zend) (ht : HashTable) : Prop :=
  strAt ht Key.sourceSetName = Key.sourceSetName ∧
    match z.keyLength with
    | .withNul => ht.find? (.name Key.labels) = none ∨
        ht.find? (.name Key.metadata) ≠ none ∧ entriesAt ht Key.metadata = entriesAt ht Key.labels
    | .withoutNul => entriesAt ht Key.metadata = ∅ ∧ entriesAt ht Key.labels = ∅ ∧
        ht.find? (.name Key.sourceService) = none

section Faithful

variable {z : Zend} {ht : HashTable} (h : Documented ht)
include h

theorem Documented.fetchesSource (hz : z.ReadsArrays) (hk : z.keyLength = .withNul) :
    FetchesSource z (findEntry z ht Key.sourceService) (findEntry z · Key.metadata) (sourceAt ht) := by
  simp only [findEntry_eq, Zend.lookupName, hk]
  unfold sourceAt
  cases hf : ht.find? (.name Key.sourceService) with
  | none => exact .inl ⟨rfl, rfl⟩
  | some v =>
    obtain ⟨sub, rfl, hsrc⟩ := h.source hf
    have hstr : ∀ k ∈ sourceKeys, (decoded z sub).sub k = strAt sub k := by
      have hdisj : ∀ k ∈ sourceKeys, k ∉ [Key.metadata] := by decide
      exact fun k hk => sub_decoded_eq_strAt hsrc.namesNulFree fun v hv => (hsrc.entryOf hv).str (hdisj k hk)
    refine .inr ⟨sub, rfl, hsrc.decodable hz, entriesAt sub Key.metadata, ?_, ?_⟩
    · exact (fetches_find? fun v hv => (hsrc.entryOf hv).map (by decide)).mpr rfl
    · simp [hstr Key.namespace_ (by decide), hstr Key.service (by decide)]

theorem Documented.lookup_withoutNul (hk : z.keyLength = .withoutNul) (k : Bytes) : findEntry z ht k = none :=
  findEntry_eq_none h.namesNulFree fun hk' => by rw [hk] at hk'; cases hk'

theorem getOneInstanceRequest_described (hs : Zval.Sound (.array ht)) (hz : z.ReadsArrays) (timeout flowId : UInt64) :
    getOneInstanceRequest z (.array ht) timeout flowId = .ok (described ht timeout flowId) ↔
      DecodedAsDescribed z ht := by
  have hreq : getOneInstanceRequest z (.array ht) timeout flowId = .ok (described ht timeout flowId) ↔
      strAt ht Key.sourceSetName = Key.sourceSetName ∧
        Fetches z (findEntry z ht Key.metadata) (findEntry z ht Key.metadata) (entriesAt ht Key.metadata) ∧
        Fetches z (findEntry z ht Key.labels) (findEntry z ht Key.metadata) (entriesAt ht Key.labels) ∧
        FetchesSource z (findEntry z ht Key.sourceService) (findEntry z · Key.metadata) (sourceAt ht) := by
    rw [getOneInstanceRequest_eq_ok hs]
    refine ⟨fun hx => ?_, fun hx => ?_⟩
    · obtain ⟨-, m, l, s, hm, hl, hsrc, he⟩ := hx
      obtain ⟨hset, rfl, rfl, rfl⟩ := h.requestOf_eq_described.mp he.symm
      exact ⟨hset, hm, hl, hsrc⟩
    · obtain ⟨hset, hm, hl, hsrc⟩ := hx
      exact ⟨h.decodable hz, _, _, _, hm, hl, hsrc, (h.requestOf_eq_described.mpr ⟨hset, rfl, rfl, rfl⟩).symm⟩
  rw [hreq, DecodedAsDescribed]
  refine and_congr_right fun _ => ?_
  cases hk : z.keyLength with
  | withoutNul =>
    simp only [h.lookup_withoutNul hk, Fetches, FetchesSource, sourceAt]
    cases hf : ht.find? (.name Key.sourceService) with
    | none => simp
    | some v =>
      obtain ⟨sub, rfl, -⟩ := h.source hf
      simp
  | withNul =>
    have hmeta : Fetches z (findEntry z ht Key.metadata) (findEntry z ht Key.metadata) (entriesAt ht Key.metadata) := by
      simp only [findEntry_eq, Zend.lookupName, hk]
      exact (fetches_find? (h.maps (by decide))).mpr rfl
    simp only [hmeta, h.fetchesSource hz hk, true_and, and_true]
    simp only [findEntry_eq, Zend.lookupName, hk, Fetches]
    have hl := h.maps (k := Key.labels) (by decide)
    have hm := h.maps (k := Key.metadata) (by decide)
    unfold entriesAt
    cases hfl : ht.find? (.name Key.labels) with
    | none => simp
    | some v =>
      obtain ⟨sub, rfl, hsub⟩ := hl v hfl
      cases hfm : ht.find? (.name Key.metadata) with
      | none => simp
      | some w =>
        obtain ⟨sub', rfl, hsub'⟩ := hm w hfm
        simp [hsub'.decodable, hsub'.decoded_eq, eq_comm]

end Faithful

/-- **A discovery request is decoded faithfully** exactly when its set name
is the name of the entry and its maps are where the code looks for them. -/
theorem faithful_iff {z : Zend} (hz : z.ReadsArrays) (sdk : Sdk) {ht : HashTable} (hs : Zval.Sound (.array ht))
    (h : Documented ht) (timeout flowId : UInt64) (returnVal : HashTable) (op : OneInstanceOp) :
    Faithful z sdk ht timeout flowId returnVal op ↔ DecodedAsDescribed z ht := by
  cases op with
  | initService =>
    rw [Faithful, hands_doInitService, initServiceRequest_eq]
    exact getOneInstanceRequest_described h hs hz timeout flowId
  | getOneInstance =>
    rw [Faithful, hands_doGetOneInstance]
    exact getOneInstanceRequest_described h hs hz timeout flowId

theorem sound_strings {l : List (Bytes × Bytes)} :
    Zval.Sound (.array (arrayLiteral (l.map fun p => (p.1, .str p.2)))) := by
  refine sound_arrayLiteral fun p hp => ?_
  obtain ⟨q, -, rfl⟩ := List.mem_map.mp hp
  exact .str

/-- A service in a set. -/
def setRequest (set : Bytes) : HashTable :=
  arrayLiteral ([(Key.service, lit "cart"), (Key.sourceSetName, set)].map fun p => (p.1, .str p.2))

theorem sound_setRequest (set : Bytes) : Zval.Sound (.array (setRequest set)) := sound_strings

theorem live_setRequest (set : Bytes) : (setRequest set).live =
    [(.name Key.service, .str (lit "cart")), (.name Key.sourceSetName, .str set)] :=
  live_arrayLiteral [Key.service, Key.sourceSetName] rfl (by decide)

theorem documented_setRequest {set : Bytes} (h : NulFree set) : Documented (setRequest set) := by
  intro b hb
  simp only [live_setRequest, List.mem_cons, List.not_mem_nil, or_false] at hb
  rcases hb with rfl | rfl
  · exact ⟨_, rfl, .inl (.inl ⟨by decide, _, rfl, by decide⟩)⟩
  · exact ⟨_, rfl, .inl (.inl ⟨by decide, _, rfl, h⟩)⟩

/-- A request for the set `gz.1` asks for the set `source_set_name`. -/
theorem faithful_setRequest :
    ¬ ∀ (z : Zend) (sdk : Sdk) (ht : HashTable) (timeout flowId : UInt64) (returnVal : HashTable)
      (op : OneInstanceOp), z.ReadsArrays → Zval.Sound (.array ht) → Documented ht →
        Faithful z sdk ht timeout flowId returnVal op := by
  intro h
  have hz : (Zend.reading .withoutNul (some [])).ReadsArrays := fun sub => ⟨_, rfl⟩
  have hd : Documented (setRequest (lit "gz.1")) := documented_setRequest (by decide)
  have hf := h _ Sdk.idle _ 500 1 Table.empty .getOneInstance hz sound_strings hd
  rw [Faithful, hands_doGetOneInstance] at hf
  have hset := ((getOneInstanceRequest_described hd sound_strings hz 500 1).mp hf).1
  exact absurd hset (by decide)

/-- The one set name that is handed over as given. -/
theorem faithful_sourceSetName :
    Faithful (Zend.reading .withoutNul (some [])) Sdk.idle (setRequest Key.sourceSetName) 500 1 Table.empty
      .getOneInstance :=
  (faithful_iff (fun _ => ⟨_, rfl⟩) Sdk.idle sound_strings (documented_setRequest (by decide)) 500 1 Table.empty
    .getOneInstance).mpr ⟨rfl, rfl, rfl, rfl⟩

/-! ## Duplicated decoders -/

theorem Fetches.unique {z : Zend} {val src : Option Zval} {m m' : StdMap} (h : Fetches z val src m)
    (h' : Fetches z val src m') : m = m' := by
  rcases h with ⟨hn, rfl⟩ | ⟨hn, ht, rfl, -, rfl⟩
  · rcases h' with ⟨-, rfl⟩ | ⟨hn', -⟩
    · rfl
    · exact absurd hn hn'
  · rcases h' with ⟨hn', -⟩ | ⟨-, ht', he, -, rfl⟩
    · exact absurd hn' hn
    · cases he
      rfl

theorem Fetches.iff_eq {z : Zend} {val src : Option Zval} {m m' : StdMap} (h : Fetches z val src m) :
    Fetches z val src m' ↔ m' = m := ⟨fun h' => h'.unique h, fun he => he ▸ h⟩

/-- A source depends on its metadata lookup only where it is found and read. -/
theorem FetchesSource.congr {z : Zend} {val : Option Zval} {f g : HashTable → Option Zval}
    {srcInfo : Option ServiceInfo} (h : ∀ src, val = some (.array src) → Decodable z src →
      ∀ m, Fetches z (f src) (f src) m ↔ Fetches z (g src) (g src) m) :
    FetchesSource z val f srcInfo ↔ FetchesSource z val g srcInfo := by
  refine or_congr Iff.rfl (exists_congr fun src => and_congr_right fun hv => and_congr_right fun hd => ?_)
  simp only [h src hv hd]

/-- The copies hand the SDK equal requests, or none. -/
def DuplicatesAgree (z : Zend) (sdk : Sdk) (reqVal : Zval) (timeout flowId : UInt64) (returnVal : HashTable) :
    Prop :=
  (∀ req, Hands (doGetInstances z sdk reqVal timeout flowId returnVal) (.getInstances req) ↔
    Hands (doGetAllInstances z sdk reqVal timeout flowId returnVal) (.getAllInstances req)) ∧
  ∀ req, Hands (doInitService z sdk reqVal timeout flowId returnVal) (.initService req) ↔
    Hands (doGetOneInstance z sdk reqVal timeout flowId returnVal) (.getOneInstance req)

/-- When the request names a source, and nothing before stops the decoder,
the source's metadata lookup ends with the map the request's own does. -/
def SameMetadata (z : Zend) (ht : HashTable) : Prop :=
  ∀ m src, Decodable z ht → Fetches z (findEntry z ht Key.metadata) (findEntry z ht Key.metadata) m →
    findEntry z ht Key.sourceService = some (.array src) → Decodable z src →
      Fetches z (findEntry z src Key.metadata) (findEntry z src Key.metadata) m

theorem sameMetadata_of_agree {z : Zend} {ht : HashTable} (hs : Zval.Sound (.array ht)) {timeout flowId : UInt64}
    (h : ∀ req, getInstancesRequest z (.array ht) timeout flowId = .ok req ↔
      getAllInstancesRequest z (.array ht) timeout flowId = .ok req) : SameMetadata z ht := by
  intro m src hd hm hsrc hds
  obtain ⟨-, m', s, -, hfs, he⟩ := (getAllInstancesRequest_eq_ok hs).mp <| (h _).mp <|
    (getInstancesRequest_eq_ok hs).mpr ⟨hd, m, _, hm, .inr ⟨src, hsrc, hds, m, hm, rfl⟩, rfl⟩
  simp only [getInstancesRequestOf, getAllInstancesRequestOf, GetInstancesRequest.mk.injEq] at he
  obtain ⟨-, -, -, -, rfl, -⟩ := he
  rcases hfs with ⟨hn, -⟩ | ⟨src', hv, -, m'', hm'', he'⟩
  · rw [hsrc] at hn
    cases hn
  · rw [hsrc] at hv
    cases hv
    simp only [Option.some.injEq, ServiceInfo.mk.injEq, true_and] at he'
    exact he' ▸ hm''

theorem agree_of_sameMetadata {z : Zend} {ht : HashTable} (hs : Zval.Sound (.array ht)) {timeout flowId : UInt64}
    (h : SameMetadata z ht) (req : GetInstancesRequest) :
    getInstancesRequest z (.array ht) timeout flowId = .ok req ↔
      getAllInstancesRequest z (.array ht) timeout flowId = .ok req := by
  have hsource : Decodable z ht → ∀ m s, Fetches z (findEntry z ht Key.metadata) (findEntry z ht Key.metadata) m →
      (FetchesSource z (findEntry z ht Key.sourceService) (fun _ => findEntry z ht Key.metadata) s ↔
        FetchesSource z (findEntry z ht Key.sourceService) (findEntry z · Key.metadata) s) := by
    intro hd m s hm
    refine FetchesSource.congr fun src hsrc hds m' => ?_
    have hsame := h m src hd hm hsrc hds
    rw [hm.iff_eq, hsame.iff_eq]
  rw [getInstancesRequest_eq_ok hs, getAllInstancesRequest_eq_ok hs]
  refine ⟨fun hreq => ?_, fun hreq => ?_⟩
  · obtain ⟨hd, m, s, hm, hsrc, rfl⟩ := hreq
    exact ⟨hd, m, s, hm, (hsource hd m s hm).mp hsrc, rfl⟩
  · obtain ⟨hd, m, s, hm, hsrc, rfl⟩ := hreq
    exact ⟨hd, m, s, hm, (hsource hd m s hm).mpr hsrc, rfl⟩

/-- **The duplicated decoders agree** exactly when the metadata of the source
are the request's own. -/
theorem duplicates_iff (z : Zend) (sdk : Sdk) {ht : HashTable} (hs : Zval.Sound (.array ht))
    (timeout flowId : UInt64) (returnVal : HashTable) :
    DuplicatesAgree z sdk (.array ht) timeout flowId returnVal ↔ SameMetadata z ht := by
  simp only [DuplicatesAgree, hands_doGetInstances, hands_doGetAllInstances, hands_doInitService,
    hands_doGetOneInstance, initServiceRequest_eq, implies_true, and_true]
  exact ⟨sameMetadata_of_agree hs, agree_of_sameMetadata hs⟩

/-- A request with metadata whose source has none. -/
def sourceRequest : HashTable :=
  arrayLiteral [(Key.service, .str (lit "cart")), (Key.metadata, .array envProd),
    (Key.sourceService, .array (arrayLiteral [(Key.service, .str (lit "web"))]))]

theorem sound_sourceRequest : Zval.Sound (.array sourceRequest) := by
  refine sound_arrayLiteral fun p hp => ?_
  simp only [List.mem_cons, List.not_mem_nil, or_false] at hp
  rcases hp with rfl | rfl | rfl
  · exact .str
  · exact sound_envProd
  · exact sound_strings (l := [(Key.service, lit "web")])

/-- `DoGetInstances` gives the source the metadata of the request. -/
theorem duplicates_sourceRequest :
    ¬ ∀ (z : Zend) (sdk : Sdk) (ht : HashTable) (timeout flowId : UInt64) (returnVal : HashTable),
      Zval.Sound (.array ht) → DuplicatesAgree z sdk (.array ht) timeout flowId returnVal := by
  intro h
  have ha := (h (Zend.reading .withNul (some [])) Sdk.idle sourceRequest 500 1 Table.empty sound_sourceRequest).1
  simp only [hands_doGetInstances, hands_doGetAllInstances] at ha
  have hread : (Zend.reading .withNul (some [])).ReadsArrays := fun _ => ⟨_, rfl⟩
  have hd : Decodable (Zend.reading .withNul (some [])) sourceRequest := by
    intro b hb
    rw [show sourceRequest.live = _ from live_arrayLiteral [Key.service, Key.metadata, Key.sourceService] rfl
      (by decide)] at hb
    simp only [List.map_cons, List.map_nil, List.mem_cons, List.not_mem_nil, or_false] at hb
    rcases hb with rfl | rfl | rfl
    · exact ⟨⟨_, rfl⟩, _, rfl⟩
    · exact ⟨⟨_, rfl⟩, hread.zStrval _⟩
    · exact ⟨⟨_, rfl⟩, hread.zStrval _⟩
  have hmeta := stringMap_envProd.decodable (z := Zend.reading .withNul (some []))
  have hsrc : Decodable (Zend.reading .withNul (some [])) (arrayLiteral [(Key.service, .str (lit "web"))]) := by
    intro b hb
    rw [List.mem_singleton.mp hb]
    exact ⟨⟨_, rfl⟩, _, rfl⟩
  have hfind : findEntry (Zend.reading .withNul (some [])) sourceRequest Key.metadata = some (.array envProd) := rfl
  rcases sameMetadata_of_agree sound_sourceRequest ha _ _ hd (.inr ⟨by simp [hfind], envProd, rfl, hmeta, rfl⟩) rfl
    hsrc with
    ⟨-, he⟩ | ⟨hn, -⟩
  · have henv : (decoded (Zend.reading .withNul (some [])) envProd)[lit "env"]? = some (lit "prod") := by decide
    simp [he] at henv
  · exact hn rfl

/-- A source with the metadata of `sourceRequest`. -/
def labelledSource : HashTable :=
  arrayLiteral [(Key.service, .str (lit "web")), (Key.metadata, .array envProd)]

def labelledSourceRequest : HashTable :=
  arrayLiteral [(Key.service, .str (lit "cart")), (Key.metadata, .array envProd),
    (Key.sourceService, .array labelledSource)]

/-- A request whose source has the same metadata as it has itself is decoded alike. -/
theorem duplicates_labelledSource :
    DuplicatesAgree (Zend.native .withNul) Sdk.idle (.array labelledSourceRequest) 500 1 Table.empty := by
  have hsource : Zval.Sound (.array labelledSource) := sound_arrayLiteral (by simp [Zval.Sound.str, sound_envProd])
  have hs : Zval.Sound (.array labelledSourceRequest) :=
    sound_arrayLiteral (by simp [Zval.Sound.str, sound_envProd, hsource])
  refine (duplicates_iff _ Sdk.idle hs 500 1 Table.empty).mpr fun m src _ hm hsrc _ => ?_
  have hfound : findEntry (Zend.native .withNul) labelledSourceRequest Key.sourceService =
      some (.array labelledSource) := rfl
  rw [hfound] at hsrc
  cases hsrc
  exact hm

end PolarisPhp
