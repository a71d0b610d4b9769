/-
The string-map codec: what `TransferToStdMap` makes of the array
`TransferMapToArray` built. The array holds the entries whose key is not
empty, each under the key the symtable rules turn its C string into. So
the map comes back exactly when no key spells an integer and no byte of a
key or a value is a NUL (`roundTrip_iff`).
-/
import PolarisPhp.Utils

namespace PolarisPhp

open Bytes FirstWins

/-- The entries `TransferMapToArray` writes. -/
def keptEntries (m : StdMap) : List (Bytes × Bytes) := m.toList.filter fun p => p.1 ≠ []

theorem transferMapToArray_eq_ofList (m : StdMap) :
    transferMapToArray m =
      Table.ofList ((keptEntries m).map fun p => (symtableKey (cstr p.1), Zval.str (cstr p.2))) := by
  have hf : transferMapToArray m = m.toList.foldl (fun arr p =>
      if p.1 = [] then arr else addAssocString arr p.1 p.2) Table.empty := by
    unfold transferMapToArray
    split
    · rename_i h0
      rw [List.length_eq_zero_iff.mp (Std.ExtTreeMap.length_toList.trans h0)]
      rfl
    · rfl
  rw [hf, Table.ofList, List.foldl_map, keptEntries, List.foldl_filter]
  congr 1
  funext arr p
  by_cases hp : p.1 = [] <;> simp [hp, addAssocString, addAssocZval, zendSymtableUpdate]

theorem sound_transferMapToArray (m : StdMap) : (transferMapToArray m).Sound := by
  rw [transferMapToArray_eq_ofList]
  exact Table.sound_ofList _

theorem mem_keptEntries {m : StdMap} {k v : Bytes} : (k, v) ∈ keptEntries m ↔ m[k]? = some v ∧ k ≠ [] := by
  simp [keptEntries, Std.ExtTreeMap.mem_toList_iff_getElem?_eq_some]

theorem nodup_keptEntries (m : StdMap) : ((keptEntries m).map Prod.fst).Nodup :=
  ((List.filter_sublist).map Prod.fst).nodup (nodup_toList m)

/-- The maps the codec keeps: the empty key aside, every key is its own C
string and stays a string under the symtable rules, and so is every value
its own C string. -/
def Encodable (m : StdMap) : Prop :=
  ∀ k v, m[k]? = some v → k ≠ [] → NulFree k ∧ ¬ SpellsIndex k ∧ NulFree v

theorem Encodable.live {m : StdMap} (h : Encodable m) :
    (transferMapToArray m).live = (keptEntries m).map fun p => (.name p.1, .str p.2) := by
  have hl : ((keptEntries m).map fun p => (symtableKey (cstr p.1), Zval.str (cstr p.2))) =
      (keptEntries m).map fun p => (.name p.1, .str p.2) := by
    refine List.map_congr_left fun p hp => ?_
    obtain ⟨hv, hk⟩ := mem_keptEntries.mp hp
    obtain ⟨hkn, hks, hvn⟩ := h p.1 p.2 hv hk
    rw [hkn.cstr, hvn.cstr, symtableKey_of_not_spells hks]
  rw [transferMapToArray_eq_ofList, hl]
  refine Table.live_ofList ?_
  rw [List.map_map, show Prod.fst ∘ (fun p : Bytes × Bytes => (ZKey.name p.1, Zval.str p.2)) =
    ZKey.name ∘ Prod.fst from rfl, ← List.map_map]
  exact (nodup_keptEntries m).map fun _ _ hab => by simpa using hab

theorem Encodable.stringMap {m : StdMap} (h : Encodable m) : StringMap (transferMapToArray m) := by
  intro b hb
  rw [h.live] at hb
  obtain ⟨p, hp, rfl⟩ := List.mem_map.mp hb
  obtain ⟨hv, hk⟩ := mem_keptEntries.mp hp
  obtain ⟨hkn, -, hvn⟩ := h p.1 p.2 hv hk
  exact ⟨p.1, p.2, rfl, hkn, hvn⟩

theorem Encodable.strMap {m : StdMap} (h : Encodable m) : strMap (transferMapToArray m) = m.erase [] := by
  have he : (transferMapToArray m).live.filterMap strEntry = keptEntries m := by
    rw [h.live, List.filterMap_map]
    exact List.filterMap_some
  rw [PolarisPhp.strMap, he]
  refine ext_iff_bindings.mpr fun k v => ?_
  rw [getElem?_firstWins_nodup (nodup_keptEntries m), mem_keptEntries, Std.ExtTreeMap.getElem?_erase]
  by_cases hk : k = []
  · simp [hk]
  · simp [hk, Std.LawfulEqCmp.compare_eq_iff_eq, Ne.symm hk]

/-! ## What a decoded map cannot hold -/

theorem nulFree_readVal (z : Zend) (v : Zval) : NulFree (readVal z v) := by
  unfold readVal
  split
  · exact nulFree_cstr _
  · simp [NulFree]

theorem nulFree_of_decoded {z : Zend} {ht : HashTable} {k v : Bytes} (h : (decoded z ht)[k]? = some v) :
    NulFree k ∧ NulFree v := by
  rw [getElem?_decoded] at h
  obtain ⟨p, hp, rfl⟩ := Option.map_eq_some_iff.mp h
  have hk : p.1 = k := by simpa using List.find?_some hp
  obtain ⟨b, -, rfl⟩ := List.mem_map.mp (List.mem_of_find?_eq_some hp)
  rw [← hk, readBucket]
  split
  · exact ⟨nulFree_cstr _, nulFree_readVal _ _⟩
  · exact ⟨by simp [NulFree], nulFree_readVal _ _⟩

theorem not_decodable_of_spells {z : Zend} {m : StdMap} {k v : Bytes} (hm : m[k]? = some v) (hk : k ≠ [])
    (hs : SpellsIndex (cstr k)) : ¬ Decodable z (transferMapToArray m) := by
  intro hd
  obtain ⟨n, hn⟩ := symtableKey_of_spells hs
  have hmem : ZKey.index n ∈
      ((keptEntries m).map fun p => (symtableKey (cstr p.1), Zval.str (cstr p.2))).map Prod.fst := by
    rw [List.map_map, List.mem_map]
    exact ⟨(k, v), mem_keptEntries.mpr ⟨hm, hk⟩, hn⟩
  obtain ⟨w, hw⟩ := Table.exists_find?_ofList hmem
  rw [← transferMapToArray_eq_ofList] at hw
  obtain ⟨⟨s, hs⟩, -⟩ := hd _ (Table.mem_of_find? hw)
  cases hs

theorem encodable_of_roundTrip {z : Zend} {m : StdMap}
    (h : transferToStdMap z (transferMapToArray m) = .ok (m.erase [])) : Encodable m := by
  intro k v hm hk
  obtain ⟨hd, he⟩ := (transferToStdMap_eq_ok (sound_transferMapToArray m)).mp h
  have hg : (decoded z (transferMapToArray m))[k]? = some v := by
    rw [← he, Std.ExtTreeMap.getElem?_erase]
    simp [Std.LawfulEqCmp.compare_eq_iff_eq, Ne.symm hk, hm]
  obtain ⟨hkn, hvn⟩ := nulFree_of_decoded hg
  exact ⟨hkn, fun hs => not_decodable_of_spells hm hk (hkn.cstr.symm ▸ hs) hd, hvn⟩

/-- **The codec round-trips** exactly the maps whose keys and values survive
as C strings and whose keys spell no integer. -/
theorem roundTrip_iff (z : Zend) (m : StdMap) :
    transferToStdMap z (transferMapToArray m) = .ok (m.erase []) ↔ Encodable m := by
  constructor
  · exact encodable_of_roundTrip
  · intro h
    rw [h.stringMap.transferToStdMap (sound_transferMapToArray m), h.strMap]

/-- A port as a key: the array holds the integer 8080, and the decoder reads
its `NULL` key. -/
theorem roundTrip_port :
    ¬ ∀ (z : Zend) (m : StdMap), transferToStdMap z (transferMapToArray m) = .ok (m.erase []) := by
  intro h
  have he := encodable_of_roundTrip
    (h (Zend.reading .withoutNul none) ((∅ : StdMap).insert (lit "8080") (lit "http")))
  have hs : SpellsIndex (lit "8080") := ⟨8080, by decide, by decide, by decide⟩
  exact (he (lit "8080") (lit "http") (by decide) (by decide)).2.1 hs

end PolarisPhp
