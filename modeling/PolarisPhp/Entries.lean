/-
What a request depends on: the entries its arrays hold, at every depth, and
neither their order nor what was unset between them (`serve_same`), as long as
no two names in one array are one C string. So scripts that hold the same run
alike (`runs_same`). Of two entries under such names the decoder keeps the
first, and the order shows.

Every entry of a request is read as a string, the nested arrays too, whose
bytes are those of the table behind them. Under the names that a decoder looks
up (`Role.nested`) no request carries what was read so, and it may differ.
-/
import PolarisPhp.Process

namespace PolarisPhp

open Bytes FirstWins Fallible

/-! ## Values that hold the same -/

/-- What the decoders take an array for. -/
inductive Role where
  | request
  | source
  | map
  deriving DecidableEq, Repr

/-- The arrays a decoder looks up in one, by their names. -/
def Role.nested (r : Role) (key : Bytes) : Option Role :=
  match r with
  | .request =>
    if key = Key.sourceService then some .source
    else if key = Key.metadata ∨ key = Key.labels ∨ key = Key.serviceSubSet then some .map
    else none
  | .source => if key = Key.metadata then some .map else none
  | .map => none

/-- No two names in the array are one C string. -/
def NamesApart (ht : HashTable) : Prop :=
  ∀ s t v w, (.name s, v) ∈ ht.live → (.name t, w) ∈ ht.live → cstr s = cstr t → s = t

/-- Of arrays taken for `r`, the same entries in any order: under the same keys
the same strings are read, and the same is looked up. What is read of an entry
under the name of a nested array is left open. -/
inductive Zval.Same (z : Zend) : Role → Zval → Zval → Prop
  | refl (r : Role) (v : Zval) : Zval.Same z r v v
  | array {r : Role} {ht ht' : HashTable} : NamesApart ht →
      (∀ k, (∃ v, (k, v) ∈ ht.live) ↔ ∃ v, (k, v) ∈ ht'.live) →
      (∀ s v v', (.name s, v) ∈ ht.live → (.name s, v') ∈ ht'.live →
        ((∃ t, zStrval z v = .ok t) ↔ ∃ t, zStrval z v' = .ok t)) →
      (∀ s v v', (.name s, v) ∈ ht.live → (.name s, v') ∈ ht'.live → r.nested (cstr s) = none →
        zStrval z v = zStrval z v') →
      (∀ key q v v', r.nested key = some q → (.name (z.lookupName key), v) ∈ ht.live →
        (.name (z.lookupName key), v') ∈ ht'.live → Zval.Same z q v v') →
      Zval.Same z r (.array ht) (.array ht')

/-- The arrays, taken for `r`, hold the same. -/
structure SameEntries (z : Zend) (r : Role) (ht ht' : HashTable) : Prop where
  apart : NamesApart ht
  keys : ∀ k, (∃ v, (k, v) ∈ ht.live) ↔ ∃ v, (k, v) ∈ ht'.live
  readable : ∀ s v v', (.name s, v) ∈ ht.live → (.name s, v') ∈ ht'.live →
    ((∃ t, zStrval z v = .ok t) ↔ ∃ t, zStrval z v' = .ok t)
  strings : ∀ s v v', (.name s, v) ∈ ht.live → (.name s, v') ∈ ht'.live → r.nested (cstr s) = none →
    zStrval z v = zStrval z v'
  arrays : ∀ key q v v', r.nested key = some q → (.name (z.lookupName key), v) ∈ ht.live →
    (.name (z.lookupName key), v') ∈ ht'.live → Zval.Same z q v v'

section Same

variable {z : Zend} {r : Role} {v v' : Zval} {ht ht' : HashTable}

theorem NamesApart.of_keys (h : NamesApart ht) (hk : ∀ k, (∃ v, (k, v) ∈ ht.live) ↔ ∃ v, (k, v) ∈ ht'.live) :
    NamesApart ht' := by
  intro s t v w hs ht hst
  obtain ⟨v', hs'⟩ := (hk _).mpr ⟨v, hs⟩
  obtain ⟨w', ht'⟩ := (hk _).mpr ⟨w, ht⟩
  exact h s t v' w' hs' ht' hst

theorem Zval.Same.symm (h : Zval.Same z r v v') : Zval.Same z r v' v := by
  induction h with
  | refl r v => exact .refl r v
  | array hapart hkeys hread hstr harr ih =>
    exact .array (hapart.of_keys hkeys) (fun k => (hkeys k).symm) (fun s v v' hv hv' => (hread s v' v hv' hv).symm)
      (fun s v v' hv hv' hs => (hstr s v' v hv' hv hs).symm) fun key q v v' hq hv hv' => ih key q v' v hq hv' hv

theorem SameEntries.symm (h : SameEntries z r ht ht') : SameEntries z r ht' ht where
  apart := h.apart.of_keys h.keys
  keys := fun k => (h.keys k).symm
  readable := fun s v v' hv hv' => (h.readable s v' v hv' hv).symm
  strings := fun s v v' hv hv' hs => (h.strings s v' v hv' hv hs).symm
  arrays := fun key q v v' hq hv hv' => (h.arrays key q v' v hq hv' hv).symm

end Same

/-! ## Reading arrays -/

section Read

variable {z : Zend} {r : Role} {ht ht' : HashTable} (h : SameEntries z r ht ht')
include h

theorem SameEntries.decodable (hd : Decodable z ht) : Decodable z ht' := by
  rintro ⟨k, v'⟩ hv'
  obtain ⟨v, hv⟩ := (h.keys k).mpr ⟨v', hv'⟩
  obtain ⟨⟨s, hname⟩, hs⟩ := hd _ hv
  obtain rfl : k = .name s := hname
  exact ⟨⟨s, rfl⟩, (h.readable s v v' hv hv').mp hs⟩

omit h in
/-- The names read from an array are as distinct as they are apart. -/
theorem nodup_readBucket (hs : ht.Sound) (ha : NamesApart ht) (hd : Decodable z ht) :
    ((ht.live.map (readBucket z)).map Prod.fst).Nodup := by
  rw [List.map_map]
  refine List.Nodup.map_on ?_ (List.Nodup.of_map _ hs.nodup)
  rintro ⟨k, v⟩ hv ⟨l, w⟩ hw he
  obtain ⟨⟨s, rfl⟩, -⟩ := hd _ hv
  obtain ⟨⟨t, rfl⟩, -⟩ := hd _ hw
  have hst : s = t := ha s t v w hv hw he
  exact List.inj_on_of_nodup_map hs.nodup hv hw (congrArg ZKey.name hst)

/-- A string read from one array is read from the other. -/
theorem SameEntries.mem_readBucket (hd : Decodable z ht) {k t : Bytes} (hk : r.nested k = none)
    (hp : (k, t) ∈ ht.live.map (readBucket z)) : (k, t) ∈ ht'.live.map (readBucket z) := by
  obtain ⟨⟨key, v⟩, hv, he⟩ := List.mem_map.mp hp
  obtain ⟨⟨s, hname⟩, -⟩ := hd _ hv
  obtain rfl : key = .name s := hname
  obtain ⟨v', hv'⟩ := (h.keys _).mp ⟨v, hv⟩
  have hks : cstr s = k := congrArg Prod.fst he
  have hread : zStrval z v = zStrval z v' := h.strings s v v' hv hv' (by rw [hks, hk])
  refine List.mem_map.mpr ⟨(.name s, v'), hv', ?_⟩
  rw [← he]
  simp only [readBucket, readVal, hread]

/-- What is read as a string is read the same. -/
theorem SameEntries.decoded (hs : ht.Sound) (hs' : ht'.Sound) (hd : Decodable z ht) {k : Bytes}
    (hk : r.nested k = none) : (decoded z ht)[k]? = (decoded z ht')[k]? := by
  refine Option.ext fun t => ?_
  rw [PolarisPhp.decoded, PolarisPhp.decoded, getElem?_firstWins_nodup (nodup_readBucket hs h.apart hd),
    getElem?_firstWins_nodup (nodup_readBucket hs' h.symm.apart (h.decodable hd))]
  exact ⟨h.mem_readBucket hd hk, h.symm.mem_readBucket (h.decodable hd) hk⟩

end Read

/-! ## Lookups -/

/-- PHP values that hold the same. -/
structure Zval.Like (z : Zend) (r : Role) (v v' : Zval) : Prop where
  same : Zval.Same z r v v'
  sound : v.Sound
  sound' : v'.Sound

/-- What the decoders read of one array, taken for `r`, they read of the other. -/
structure ReadsAlike (z : Zend) (r : Role) (ht ht' : HashTable) : Prop where
  decodable : Decodable z ht → Decodable z ht'
  decoded : Decodable z ht → ∀ {k}, r.nested k = none → (decoded z ht)[k]? = (decoded z ht')[k]?
  found : ∀ {key q}, r.nested key = some q → Option.Rel (Zval.Like z q) (findEntry z ht key) (findEntry z ht' key)

section Lookups

variable {z : Zend} {r : Role} {v v' : Zval} {ht ht' : HashTable}

theorem Zval.Like.symm (h : Zval.Like z r v v') : Zval.Like z r v' v := ⟨h.same.symm, h.sound', h.sound⟩

theorem readsAlike_refl (hs : Zval.Sound (.array ht)) : ReadsAlike z r ht ht := by
  refine ⟨id, fun _ _ _ => rfl, fun {key q} _ => ?_⟩
  cases hf : findEntry z ht key with
  | none => exact .none
  | some v => exact .some ⟨.refl q v, soundAt_findEntry hs z key v hf, soundAt_findEntry hs z key v hf⟩

theorem SameEntries.readsAlike (h : SameEntries z r ht ht') (hs : Zval.Sound (.array ht))
    (hs' : Zval.Sound (.array ht')) : ReadsAlike z r ht ht' := by
  refine ⟨h.decodable, fun hd _ hk => h.decoded hs.of_array hs'.of_array hd hk, fun {key q} hq => ?_⟩
  rw [findEntry_eq, findEntry_eq]
  cases hf : ht.find? (.name (z.lookupName key)) with
  | none =>
    have hn : ht'.find? (.name (z.lookupName key)) = none := by
      refine Table.find?_eq_none.mpr fun v' hv' => ?_
      obtain ⟨v, hv⟩ := (h.keys _).mpr ⟨v', hv'⟩
      exact Table.find?_eq_none.mp hf v hv
    rw [hn]
    exact .none
  | some v =>
    have hv := Table.mem_of_find? hf
    obtain ⟨v', hv'⟩ := (h.keys _).mp ⟨v, hv⟩
    rw [hs'.of_array.find?_eq_some.mpr hv']
    exact .some ⟨h.arrays key q v v' hq hv hv', hs.of_mem hv, hs'.of_mem hv'⟩

/-- The like of an array is an array that reads alike. -/
theorem Zval.Like.array (h : Zval.Like z r (.array ht) v') : ∃ ht', v' = .array ht' ∧ ReadsAlike z r ht ht' := by
  obtain ⟨hsame, hs, hs'⟩ := h
  cases hsame with
  | refl => exact ⟨ht, rfl, readsAlike_refl hs⟩
  | array hapart hkeys hread hstr harr =>
    exact ⟨_, rfl, SameEntries.readsAlike ⟨hapart, hkeys, hread, hstr, harr⟩ hs hs'⟩

/-- A map is all strings. -/
theorem ReadsAlike.map (h : ReadsAlike z .map ht ht') (hd : Decodable z ht) :
    PolarisPhp.decoded z ht = PolarisPhp.decoded z ht' :=
  Std.ExtTreeMap.ext_getElem? fun _ => h.decoded hd rfl

theorem ReadsAlike.sub (h : ReadsAlike z r ht ht') (hd : Decodable z ht) {k : Bytes} (hk : r.nested k = none) :
    (PolarisPhp.decoded z ht).sub k = (PolarisPhp.decoded z ht').sub k := by
  rw [StdMap.sub_eq, StdMap.sub_eq, h.decoded hd hk]

variable {val val' src src' : Option Zval} {m : StdMap}

theorem Fetches.like (hval : Option.Rel (Zval.Like z .map) val val') (hsrc : Option.Rel (Zval.Like z .map) src src')
    (h : Fetches z val src m) : Fetches z val' src' m := by
  rcases h with ⟨rfl, rfl⟩ | ⟨hv, ht, rfl, hd, rfl⟩
  · cases hval
    exact .inl ⟨rfl, rfl⟩
  · cases hsrc with
    | some hlike =>
      obtain ⟨ht', rfl, hread⟩ := hlike.array
      refine .inr ⟨?_, ht', rfl, hread.decodable hd, hread.map hd⟩
      cases hval with
      | none => exact absurd rfl hv
      | some _ => nofun

theorem FetchesArray.like (hval : Option.Rel (Zval.Like z .map) val val') (h : FetchesArray z val m) :
    FetchesArray z val' m := by
  rcases h with ⟨hn, rfl⟩ | ⟨ht, rfl, hd, rfl⟩
  · refine .inl ⟨fun ht' he => ?_, rfl⟩
    subst he
    cases hval with
    | some hlike =>
      obtain ⟨ht, rfl, -⟩ := hlike.symm.array
      exact hn ht rfl
  · cases hval with
    | some hlike =>
      obtain ⟨ht', rfl, hread⟩ := hlike.array
      exact .inr ⟨ht', rfl, hread.decodable hd, hread.map hd⟩

theorem FetchesSource.like {srcmeta srcmeta' : HashTable → Option Zval} {s : Option ServiceInfo}
    (hval : Option.Rel (Zval.Like z .source) val val')
    (hmeta : ∀ ht ht', ReadsAlike z .source ht ht' → Option.Rel (Zval.Like z .map) (srcmeta ht) (srcmeta' ht'))
    (h : FetchesSource z val srcmeta s) : FetchesSource z val' srcmeta' s := by
  rcases h with ⟨rfl, rfl⟩ | ⟨ht, rfl, hd, m, hm, rfl⟩
  · cases hval
    exact .inl ⟨rfl, rfl⟩
  · cases hval with
    | some hlike =>
      obtain ⟨ht', rfl, hread⟩ := hlike.array
      refine .inr ⟨ht', rfl, hread.decodable hd, m, hm.like (hmeta ht ht' hread) (hmeta ht ht' hread), ?_⟩
      rw [hread.sub hd (by decide), hread.sub hd (by decide)]

end Lookups

/-! ## Requests -/

section Records

variable {p p' : StdMap} (h : ∀ {k}, Role.request.nested k = none → p.sub k = p'.sub k) (m l : StdMap)
  (src : Option ServiceInfo) (timeout flowId : UInt64)
include h

theorem registerRequestOf_congr : registerRequestOf p m timeout flowId = registerRequestOf p' m timeout flowId := by
  simp (disch := decide) only [registerRequestOf, tokenOf, h]

theorem deregisterRequestOf_congr : deregisterRequestOf p timeout flowId = deregisterRequestOf p' timeout flowId := by
  simp (disch := decide) only [deregisterRequestOf, tokenOf, h]

theorem heartbeatRequestOf_congr : heartbeatRequestOf p = heartbeatRequestOf p' := by
  simp (disch := decide) only [heartbeatRequestOf, tokenOf, h]

theorem initServiceRequestOf_congr :
    initServiceRequestOf p m l src timeout flowId = initServiceRequestOf p' m l src timeout flowId := by
  simp (disch := decide) only [initServiceRequestOf, h]

theorem getOneInstanceRequestOf_congr :
    getOneInstanceRequestOf p m l src timeout flowId = getOneInstanceRequestOf p' m l src timeout flowId := by
  simp (disch := decide) only [getOneInstanceRequestOf, h]

theorem getInstancesRequestOf_congr :
    getInstancesRequestOf p m src timeout flowId = getInstancesRequestOf p' m src timeout flowId := by
  simp (disch := decide) only [getInstancesRequestOf, h]

theorem getAllInstancesRequestOf_congr :
    getAllInstancesRequestOf p m src timeout flowId = getAllInstancesRequestOf p' m src timeout flowId := by
  simp (disch := decide) only [getAllInstancesRequestOf, h]

theorem serviceCallResultOf_congr : serviceCallResultOf p m l = serviceCallResultOf p' m l := by
  simp (disch := decide) only [serviceCallResultOf, h]

theorem quotaRequestOf_congr : quotaRequestOf p m l = quotaRequestOf p' m l := by
  simp (disch := decide) only [quotaRequestOf, h]

theorem limitCallResultOf_congr : limitCallResultOf p m l = limitCallResultOf p' m l := by
  simp (disch := decide) only [limitCallResultOf, h]

end Records

section Requests

variable {z : Zend} {ht ht' : HashTable} (h : ReadsAlike z .request ht ht') (hs : Zval.Sound (.array ht))
  (hs' : Zval.Sound (.array ht')) {timeout flowId : UInt64}
include h hs hs'

theorem registerRequest_alike {req : InstanceRegisterRequest}
    (hr : registerRequest z (.array ht) timeout flowId = .ok req) :
    registerRequest z (.array ht') timeout flowId = .ok req := by
  obtain ⟨hd, m, hm, rfl⟩ := (registerRequest_eq_ok hs).mp hr
  exact (registerRequest_eq_ok hs').mpr ⟨h.decodable hd, m, hm.like (h.found rfl) (h.found rfl),
    registerRequestOf_congr (h.sub hd) ..⟩

theorem deregisterRequest_alike {req : InstanceDeregisterRequest}
    (hr : deregisterRequest z (.array ht) timeout flowId = .ok req) :
    deregisterRequest z (.array ht') timeout flowId = .ok req := by
  obtain ⟨hd, rfl⟩ := (deregisterRequest_eq_ok hs).mp hr
  exact (deregisterRequest_eq_ok hs').mpr ⟨h.decodable hd, deregisterRequestOf_congr (h.sub hd) ..⟩

theorem heartbeatRequest_alike {req : InstanceHeartbeatRequest} (hr : heartbeatRequest z (.array ht) = .ok req) :
    heartbeatRequest z (.array ht') = .ok req := by
  obtain ⟨hd, rfl⟩ := (heartbeatRequest_eq_ok hs).mp hr
  exact (heartbeatRequest_eq_ok hs').mpr ⟨h.decodable hd, heartbeatRequestOf_congr (h.sub hd)⟩

theorem initServiceRequest_alike {req : GetOneInstanceRequest}
    (hr : initServiceRequest z (.array ht) timeout flowId = .ok req) :
    initServiceRequest z (.array ht') timeout flowId = .ok req := by
  obtain ⟨hd, m, l, s, hm, hl, hsrc, rfl⟩ := (initServiceRequest_eq_ok hs).mp hr
  exact (initServiceRequest_eq_ok hs').mpr ⟨h.decodable hd, m, l, s, hm.like (h.found rfl) (h.found rfl),
    hl.like (h.found rfl) (h.found rfl), hsrc.like (h.found rfl) fun _ _ hsub => hsub.found rfl,
    initServiceRequestOf_congr (h.sub hd) ..⟩

theorem getOneInstanceRequest_alike {req : GetOneInstanceRequest}
    (hr : getOneInstanceRequest z (.array ht) timeout flowId = .ok req) :
    getOneInstanceRequest z (.array ht') timeout flowId = .ok req := by
  obtain ⟨hd, m, l, s, hm, hl, hsrc, rfl⟩ := (getOneInstanceRequest_eq_ok hs).mp hr
  exact (getOneInstanceRequest_eq_ok hs').mpr ⟨h.decodable hd, m, l, s, hm.like (h.found rfl) (h.found rfl),
    hl.like (h.found rfl) (h.found rfl), hsrc.like (h.found rfl) fun _ _ hsub => hsub.found rfl,
    getOneInstanceRequestOf_congr (h.sub hd) ..⟩

theorem getInstancesRequest_alike {req : GetInstancesRequest}
    (hr : getInstancesRequest z (.array ht) timeout flowId = .ok req) :
    getInstancesRequest z (.array ht') timeout flowId = .ok req := by
  obtain ⟨hd, m, s, hm, hsrc, rfl⟩ := (getInstancesRequest_eq_ok hs).mp hr
  -- the source's metadata are the request's own
  exact (getInstancesRequest_eq_ok hs').mpr ⟨h.decodable hd, m, s, hm.like (h.found rfl) (h.found rfl),
    hsrc.like (h.found rfl) fun _ _ _ => h.found rfl, getInstancesRequestOf_congr (h.sub hd) ..⟩

theorem getAllInstancesRequest_alike {req : GetInstancesRequest}
    (hr : getAllInstancesRequest z (.array ht) timeout flowId = .ok req) :
    getAllInstancesRequest z (.array ht') timeout flowId = .ok req := by
  obtain ⟨hd, m, s, hm, hsrc, rfl⟩ := (getAllInstancesRequest_eq_ok hs).mp hr
  exact (getAllInstancesRequest_eq_ok hs').mpr ⟨h.decodable hd, m, s, hm.like (h.found rfl) (h.found rfl),
    hsrc.like (h.found rfl) fun _ _ hsub => hsub.found rfl, getAllInstancesRequestOf_congr (h.sub hd) ..⟩

theorem serviceCallResult_alike {req : ServiceCallResult} (hr : serviceCallResult z (.array ht) = .ok req) :
    serviceCallResult z (.array ht') = .ok req := by
  obtain ⟨hd, s, l, hsub, hl, hsrc⟩ := (serviceCallResult_eq_ok hs).mp hr
  refine (serviceCallResult_eq_ok hs').mpr ⟨h.decodable hd, s, l, hsub.like (h.found rfl) (h.found rfl),
    hl.like (h.found rfl) (h.found rfl), ?_⟩
  rw [← serviceCallResultOf_congr (h.sub hd)]
  have hfound : Option.Rel (Zval.Like z .source) (findEntry z ht Key.sourceService) (findEntry z ht' Key.sourceService) :=
    h.found rfl
  rcases hsrc with ⟨hn, rfl⟩ | ⟨src, hsrc, hdsrc, rfl⟩
  · rw [hn] at hfound
    generalize findEntry z ht' Key.sourceService = o at hfound ⊢
    cases hfound
    exact .inl ⟨rfl, rfl⟩
  · rw [hsrc] at hfound
    generalize findEntry z ht' Key.sourceService = o at hfound ⊢
    cases hfound with
    | some hlike =>
      obtain ⟨src', rfl, hread⟩ := hlike.array
      exact .inr ⟨src', rfl, hread.decodable hdsrc, by rw [hread.sub hdsrc (by decide), hread.sub hdsrc (by decide)]⟩

theorem convertToQuotaRequest_alike {req : QuotaRequest} (hr : convertToQuotaRequest z (.array ht) = .ok req) :
    convertToQuotaRequest z (.array ht') = .ok req := by
  obtain ⟨hd, l, s, hl, hsub, rfl⟩ := (convertToQuotaRequest_eq_ok hs).mp hr
  exact (convertToQuotaRequest_eq_ok hs').mpr ⟨h.decodable hd, l, s, hl.like (h.found rfl) (h.found rfl),
    hsub.like (h.found rfl) (h.found rfl), quotaRequestOf_congr (h.sub hd) ..⟩

theorem limitCallResult_alike {req : LimitCallResult} (hr : limitCallResult z (.array ht) = .ok req) :
    limitCallResult z (.array ht') = .ok req := by
  obtain ⟨hd, l, s, hl, hsub, rfl⟩ := (limitCallResult_eq_ok hs).mp hr
  exact (limitCallResult_eq_ok hs').mpr ⟨h.decodable hd, l, s, hl.like (h.found rfl),
    hsub.like (h.found rfl) (h.found rfl), limitCallResultOf_congr (h.sub hd) ..⟩

/-- An array that is served is served as its like is. -/
theorem serve_of_alike {sdk : Sdk} {op : Operation} {s : Served}
    (hr : op.serve z sdk (.array ht) timeout flowId = .ok s) : op.serve z sdk (.array ht') timeout flowId = .ok s := by
  cases op <;> obtain ⟨req, hreq, he⟩ := bind_eq_ok.mp hr
  case register => exact bind_eq_ok.mpr ⟨req, registerRequest_alike h hs hs' hreq, he⟩
  case deregister => exact bind_eq_ok.mpr ⟨req, deregisterRequest_alike h hs hs' hreq, he⟩
  case heartbeat => exact bind_eq_ok.mpr ⟨req, heartbeatRequest_alike h hs hs' hreq, he⟩
  case initService => exact bind_eq_ok.mpr ⟨req, initServiceRequest_alike h hs hs' hreq, he⟩
  case getOneInstance => exact bind_eq_ok.mpr ⟨req, getOneInstanceRequest_alike h hs hs' hreq, he⟩
  case getInstances => exact bind_eq_ok.mpr ⟨req, getInstancesRequest_alike h hs hs' hreq, he⟩
  case getAllInstances => exact bind_eq_ok.mpr ⟨req, getAllInstancesRequest_alike h hs hs' hreq, he⟩
  case updateServiceCallResult => exact bind_eq_ok.mpr ⟨req, serviceCallResult_alike h hs hs' hreq, he⟩
  case getQuota => exact bind_eq_ok.mpr ⟨req, convertToQuotaRequest_alike h hs hs' hreq, he⟩
  case updateCallResult => exact bind_eq_ok.mpr ⟨req, limitCallResult_alike h hs hs' hreq, he⟩
  case initQuotaWindow => exact bind_eq_ok.mpr ⟨req, convertToQuotaRequest_alike h hs hs' hreq, he⟩

end Requests

/-! ## Runs -/

/-- An array as the first argument: whether the arguments are in order does
not depend on it. -/
inductive ParsedAlike (ht ht' : HashTable) : Parsed (Zval × UInt64 × UInt64) → Parsed (Zval × UInt64 × UInt64) → Prop
  | wrongCount : ParsedAlike ht ht' .wrongCount .wrongCount
  | failure : ParsedAlike ht ht' .failure .failure
  | success {timeout flowId} :
      ParsedAlike ht ht' (.success (.array ht, timeout, flowId)) (.success (.array ht', timeout, flowId))

theorem parseALL_array (z : Zend) (rest : List Zval) (ht ht' : HashTable) :
    ParsedAlike ht ht' (parseALL z (.array ht :: rest)) (parseALL z (.array ht' :: rest)) := by
  match rest with
  | [] | [_] | _ :: _ :: _ :: _ => exact .wrongCount
  | [timeout, flowId] =>
    simp only [parseALL, parseArray, Zval.deref]
    cases parseLong z timeout with
    | none => exact .failure
    | some t =>
      cases parseLong z flowId with
      | none => exact .failure
      | some f => exact .success

theorem parse_array (z : Zend) (op : Operation) (rest : List Zval) (ht ht' : HashTable) :
    ParsedAlike ht ht' (op.parse z (.array ht :: rest)) (op.parse z (.array ht' :: rest)) := by
  cases op with
  | heartbeat | getQuota | updateCallResult | initQuotaWindow =>
    cases rest with
    | nil => exact .success
    | cons a rest => exact .wrongCount
  | register | deregister | initService | getOneInstance | getInstances | getAllInstances | updateServiceCallResult =>
    exact parseALL_array z rest ht ht'

section Step

variable {z : Zend} {ht ht' : HashTable} (h : SameEntries z .request ht ht') (hs : Zval.Sound (.array ht))
  (hs' : Zval.Sound (.array ht'))
include h hs hs'

/-- **A request is its entries**: arrays that hold the same are served alike. -/
theorem serve_same {sdk : Sdk} {timeout flowId : UInt64} {op : Operation} {s : Served} :
    op.serve z sdk (.array ht) timeout flowId = .ok s ↔ op.serve z sdk (.array ht') timeout flowId = .ok s :=
  ⟨serve_of_alike (h.readsAlike hs hs') hs hs', serve_of_alike (h.symm.readsAlike hs' hs) hs' hs⟩

/-- Both are decoded, to the same strings, or neither is. -/
theorem transferToStdMap_same :
    (∃ m m', transferToStdMap z ht = .ok m ∧ transferToStdMap z ht' = .ok m' ∧
        ∀ {k}, Role.request.nested k = none → m.sub k = m'.sub k) ∨
      ∃ e e', transferToStdMap z ht = .error e ∧ transferToStdMap z ht' = .error e' := by
  by_cases hd : Decodable z ht
  · exact .inl ⟨_, _, transferToStdMap_ok hs.of_array hd, transferToStdMap_ok hs'.of_array (h.decodable hd),
      (h.readsAlike hs hs').sub hd⟩
  · obtain ⟨e, -, he⟩ := transferToStdMap_error hs.of_array hd
    obtain ⟨e', -, he'⟩ := transferToStdMap_error hs'.of_array fun hd' => hd (h.symm.decodable hd')
    exact .inr ⟨e, e', he, he'⟩

/-- Which of several bad reads comes first is all that may differ. -/
theorem clientStep_same (ready : Finset Api) (sdk : Sdk) (rest : List Zval) (m : Method) :
    ((clientMachine z).step ready ⟨sdk, .array ht :: rest, m⟩).mapStop (fun _ => ()) =
      ((clientMachine z).step ready ⟨sdk, .array ht' :: rest, m⟩).mapStop (fun _ => ()) := by
  cases m with
  | initProvider | initConsumer | initLimit => rfl
  | construct =>
    cases rest with
    | cons a rest => rfl
    | nil =>
      have hparse : ∀ ht : HashTable, parseA [.array ht] = .success (.array ht) := fun _ => rfl
      have hread : ∀ ht : HashTable, (zArrvalP (some (.array ht)) >>= transferToStdMap z) = transferToStdMap z ht :=
        fun _ => rfl
      simp only [clientMachine, configured, hparse, hread]
      rcases transferToStdMap_same h hs hs' with ⟨m, m', hm, hm', hsub⟩ | ⟨e, e', he, he'⟩
      · rw [hm, hm']
        simp (disch := decide) only [hsub]
      · rw [he, he']
        rfl
  | operation op =>
    have hparse := parse_array z op rest ht ht'
    simp only [clientMachine]
    generalize op.parse z (.array ht :: rest) = a at hparse ⊢
    generalize op.parse z (.array ht' :: rest) = a' at hparse ⊢
    cases hparse with
    | wrongCount | failure => rfl
    | @success timeout flowId =>
      have hserve : ∀ s, op.serve z sdk (.array ht) timeout flowId = .ok s ↔
          op.serve z sdk (.array ht') timeout flowId = .ok s := fun s => serve_same h hs hs'
      dsimp only
      split
      · rcases ok_iff_cases hserve with ⟨s, hok, hok'⟩ | ⟨e, e', he, he'⟩
        · rw [hok, hok']
        · rw [he, he']
          rfl
      · rfl

end Step

/-- Inputs that are the same, or calls with arrays that hold the same. -/
inductive Input.Same (z : Zend) : Input → Input → Prop
  | refl (i : Input) : Input.Same z i i
  | call {ht ht' sdk rest m} : SameEntries z .request ht ht' → Zval.Sound (.array ht) → Zval.Sound (.array ht') →
      Input.Same z (.call ⟨sdk, .array ht :: rest, m⟩) (.call ⟨sdk, .array ht' :: rest, m⟩)

theorem clients_same {z : Zend} {i j : Handle × Input} (h : i.1 = j.1 ∧ i.2.Same z j.2)
    (σ : Handle → Life (Finset Api)) :
    ((clients z).mapStop fun _ => ()).step σ i = ((clients z).mapStop fun _ => ()).step σ j := by
  obtain ⟨k, i⟩ := i
  obtain ⟨k', j⟩ := j
  obtain ⟨rfl, hsame⟩ : k = k' ∧ i.Same z j := h
  cases hsame with
  | refl => rfl
  | call hent hs hs' =>
    rw [clients, Machine.family_mapStop, Machine.living_mapStop]
    simp only [Machine.family, Machine.living]
    cases σ k with
    | unborn | released => rfl
    | live ready => simp only [Machine.mapStop, clientStep_same hent hs hs']

/-- **Scripts whose arrays hold the same run alike**, whatever the objects and
the order of the calls. -/
theorem runs_same (z : Zend) {s t : Script}
    (h : List.Forall₂ (fun i j => i.1 = j.1 ∧ i.2.Same z j.2) s.inputs t.inputs) :
    ((processMachine z).run .start s.inputs).Alike ((processMachine z).run .start t.inputs) := by
  have hsees : Process.start.Sees fun _ => .unborn := fun _ => rfl
  have hrun := (process_simulates z).run hsees
  have hsame : ((clients z).run (fun _ => .unborn) s.inputs).mapStop (fun _ => ()) =
      ((clients z).run (fun _ => .unborn) t.inputs).mapStop fun _ => () := by
    rw [← Machine.run_mapStop, ← Machine.run_mapStop]
    exact Machine.run_congr (fun σ i j hij => clients_same hij σ) _ h
  have halike := Run.Alike.of_mapStop hsame
  refine ⟨?_, ?_, ?_⟩
  · rw [(hrun s.inputs).events, (hrun t.inputs).events, halike.events]
  · rw [(hrun s.inputs).answers, (hrun t.inputs).answers, halike.answers]
  · simp only [(hrun s.inputs).error_iff, (hrun t.inputs).error_iff, halike.stops]

/-! ## The order of entries -/

/-- The values under the name `k` of two arrays taken for `r` hold the same. -/
structure SameValue (z : Zend) (r : Role) (k : Bytes) (v v' : Zval) : Prop where
  readable : (∃ t, zStrval z v = .ok t) ↔ ∃ t, zStrval z v' = .ok t
  strings : r.nested k = none → zStrval z v = zStrval z v'
  arrays : ∀ q, r.nested k = some q → Zval.Same z q v v'

theorem SameValue.refl (z : Zend) (r : Role) (k : Bytes) (v : Zval) : SameValue z r k v v :=
  ⟨Iff.rfl, fun _ => rfl, fun q _ => .refl q v⟩

theorem SameEntries.same {z : Zend} {r : Role} {ht ht' : HashTable} (h : SameEntries z r ht ht') :
    Zval.Same z r (.array ht) (.array ht') := .array h.apart h.keys h.readable h.strings h.arrays

/-- Where no name holds a NUL, arrays hold the same that do under each name. -/
theorem sameEntries_of_names {z : Zend} {r : Role} {ht ht' : HashTable} (hn : NamesNulFree ht)
    (hk : ∀ k, (∃ v, (k, v) ∈ ht.live) ↔ ∃ v, (k, v) ∈ ht'.live)
    (hv : ∀ k v v', (.name k, v) ∈ ht.live → (.name k, v') ∈ ht'.live → SameValue z r k v v') :
    SameEntries z r ht ht' := by
  have hfree : ∀ {s v}, (.name s, v) ∈ ht.live → NulFree s := by
    intro s v h
    obtain ⟨s', he, hs'⟩ := hn _ h
    rwa [ZKey.name.inj he]
  refine ⟨?_, hk, fun s v v' h h' => (hv s v v' h h').readable, fun s v v' h h' hs => ?_, fun key q v v' hq h h' => ?_⟩
  · intro s t v w h h' he
    rwa [(hfree h).cstr, (hfree h').cstr] at he
  · rw [(hfree h).cstr] at hs
    exact (hv s v v' h h').strings hs
  · cases hz : z.keyLength with
    | withNul =>
      rw [Zend.lookupName, hz] at h h'
      exact (hv key v v' h h').arrays q hq
    | withoutNul =>
      rw [Zend.lookupName, hz] at h
      exact absurd (hfree h) (not_nulFree_cStr key)

theorem sameEntries_of_perm {z : Zend} {r : Role} {ht ht' : HashTable} (hs : ht.Sound) (hn : NamesNulFree ht)
    (hp : ht.live.Perm ht'.live) : SameEntries z r ht ht' := by
  refine sameEntries_of_names hn (fun k => exists_congr fun v => hp.mem_iff) fun k v v' hv hv' => ?_
  have he : (ZKey.name k, v) = (ZKey.name k, v') := List.inj_on_of_nodup_map hs.nodup hv (hp.mem_iff.mpr hv') rfl
  cases he
  exact .refl z r k v

def envEntries : HashTable := arrayLiteral [(lit "env", .str (lit "prod"))]

/-- The same after an `unset`, which leaves a slot behind. -/
def staleEntries : HashTable :=
  (arrayLiteral [(lit "env", .str (lit "prod")), (lit "zone", .str (lit "1"))]).unset (.name (lit "zone"))

/-- The entries of an instance with the metadata `metadata`. -/
def instanceEntries (metadata : HashTable) : List (Bytes × Zval) :=
  [(Key.service, .str (lit "cart")), (Key.host, .str (lit "10.0.0.1")), (Key.metadata, .array metadata)]

/-- A client that registers an instance. -/
def registerOnce (ht : HashTable) : Script where
  inputs := [(0, .create), (0, .call newClient), (0, .call ⟨Sdk.idle, [], .initProvider⟩),
    (0, .call ⟨Sdk.idle, [.array ht, .long 500, .long 1], .operation .register⟩)]
  orderly := by simp

theorem live_instance {metadata : HashTable} : (arrayLiteral (instanceEntries metadata)).live =
    (instanceEntries metadata).map fun p => (.name p.1, p.2) :=
  live_arrayLiteral [Key.service, Key.host, Key.metadata] rfl (by decide)

theorem live_instance_reverse {metadata : HashTable} : (arrayLiteral (instanceEntries metadata).reverse).live =
    (instanceEntries metadata).reverse.map fun p => (.name p.1, p.2) :=
  live_arrayLiteral [Key.metadata, Key.host, Key.service] rfl (by decide)

/-- It may write the entries in either order, over whatever was unset. -/
theorem runs_same_reversed :
    ((processMachine (Zend.native .withNul)).run .start
        (registerOnce (arrayLiteral (instanceEntries envEntries))).inputs).Alike
      ((processMachine (Zend.native .withNul)).run .start
        (registerOnce (arrayLiteral (instanceEntries staleEntries).reverse)).inputs) := by
  have henv : Zval.Sound (.array envEntries) := sound_arrayLiteral_str (by simp)
  have hstale : Zval.Sound (.array staleEntries) := by
    have hlit : Zval.Sound (.array (arrayLiteral [(lit "env", .str (lit "prod")), (lit "zone", .str (lit "1"))])) :=
      sound_arrayLiteral_str (by simp)
    refine .array (hlit.of_array.unset _) fun k v hv => ?_
    rw [staleEntries, Table.live_unset] at hv
    exact hlit.of_mem (List.mem_of_mem_filter hv)
  have hsound : Zval.Sound (.array (arrayLiteral (instanceEntries envEntries))) :=
    sound_arrayLiteral (by simp [instanceEntries, Zval.Sound.str, henv])
  have hsound' : Zval.Sound (.array (arrayLiteral (instanceEntries staleEntries).reverse)) :=
    sound_arrayLiteral (by simp [instanceEntries, Zval.Sound.str, hstale])
  have hmetadata : Zval.Same (Zend.native .withNul) .map (.array envEntries) (.array staleEntries) := by
    have hlive : envEntries.live.Perm staleEntries.live := List.Perm.refl envEntries.live
    refine (sameEntries_of_perm henv.of_array ?_ hlive).same
    exact namesNulFree_arrayLiteral [lit "env"] rfl (by decide) (by decide)
  refine runs_same _ (.cons ⟨rfl, .refl _⟩ (.cons ⟨rfl, .refl _⟩ (.cons ⟨rfl, .refl _⟩ (.cons ⟨rfl, ?_⟩ .nil))))
  refine .call (sameEntries_of_names ?_ (fun k => ?_) fun k v v' hv hv' => ?_) hsound hsound'
  · exact namesNulFree_arrayLiteral [Key.service, Key.host, Key.metadata] rfl (by decide) (by decide)
  · rw [live_instance, live_instance_reverse, List.map_reverse]
    simp only [instanceEntries, List.map_cons, List.map_nil, List.mem_cons, List.mem_reverse, Prod.mk.injEq,
      List.not_mem_nil, or_false, exists_or, exists_and_left, exists_eq, and_true]
  · rw [live_instance] at hv
    rw [live_instance_reverse, List.map_reverse, List.mem_reverse] at hv'
    simp only [instanceEntries, List.map_cons, List.map_nil, List.mem_cons, Prod.mk.injEq, ZKey.name.injEq,
      List.not_mem_nil, or_false] at hv hv'
    rcases hv with ⟨rfl, rfl⟩ | ⟨rfl, rfl⟩ | ⟨rfl, rfl⟩ <;> rcases hv' with ⟨he, rfl⟩ | ⟨he, rfl⟩ | ⟨he, rfl⟩
    case inr.inr.inr.inr =>
      -- the metadata are read as one slot and as two
      refine ⟨iff_of_true ⟨_, rfl⟩ ⟨_, rfl⟩, fun h => absurd h (by decide), fun q hq => ?_⟩
      obtain rfl : Role.map = q := Option.some.inj hq
      exact hmetadata
    all_goals first | exact .refl _ _ _ _ | exact absurd he (by decide)

end PolarisPhp
