/-
`utils.hpp`: the codec between PHP arrays and `std::map<string, string>`,
and the length under which the extension looks up a key.

The decoder reads every live bucket's key and value as strings
(`Readable`); where it can, it returns the map binding each key, read as a
C string, to its value (`transferToStdMap_ok`), and it stops at the first
bucket it cannot read otherwise (`transferToStdMap_error`). What the
lookup compares is the name with a NUL after it (`findEntry_eq`).
-/
import Mathlib.Data.List.Find
import PolarisPhp.Lib.FirstWins
import PolarisPhp.Sdk
import PolarisPhp.Zend.Hash

namespace PolarisPhp

open Bytes FirstWins

def transferMapToArray (metadata : StdMap) : HashTable :=
  if metadata.size = 0 then Table.empty
  else metadata.toList.foldl (fun arr p =>
    -- entries with an empty key are left out
    if p.1 = [] then arr else addAssocString arr p.1 p.2) Table.empty

/-- The loop body of `TransferToStdMap` on a bucket that is not `IS_UNDEF`. -/
def insertBucket (z : Zend) (metadata : StdMap) (b : ZKey × Zval) : Except Stop StdMap := do
  let key ← zstrVal b.1
  let val ← zStrval z b.2
  return metadata.insertIfNew (cstr key) (cstr val)

def transferToStdMap (z : Zend) (ht : HashTable) : Except Stop StdMap :=
  if ht.nNumOfElements = 0 then .ok ∅
  else ht.arData.foldlM (fun metadata b =>
    match b.2 with
    | none => pure metadata
    | some val => insertBucket z metadata (b.1, val)) ∅

def getKeyLength (val : Bytes) : Nat := val.length + 1

/-- `zend_hash_find(ht, zend_string_init(key.c_str(), getKeyLength(key), _))`. -/
def findEntry (z : Zend) (ht : HashTable) (key : Bytes) : Option Zval :=
  zendHashFind z ht (zendStringInit (cStr key) (getKeyLength key))

/-- The maps a request nests: `if (val != NULL) m = TransferToStdMap(Z_ARRVAL_P(src))`,
`m` being empty before. Most calls pass the same zval twice. -/
def transferIf (z : Zend) (val src : Option Zval) : Except Stop StdMap :=
  match val with
  | none => pure ∅
  | some _ => do transferToStdMap z (← zArrvalP src)

/-! ## What the decoder reads -/

/-- Both reads of a bucket succeed. -/
def Readable (z : Zend) (b : ZKey × Zval) : Prop := (∃ s, b.1 = .name s) ∧ ∃ s, zStrval z b.2 = .ok s

/-- Every live bucket can be read. -/
def Decodable (z : Zend) (ht : HashTable) : Prop := ∀ b ∈ ht.live, Readable z b

/-- The bytes read from a value, up to the first NUL. -/
def readVal (z : Zend) (v : Zval) : Bytes :=
  match zStrval z v with
  | .ok s => cstr s
  | .error _ => []

/-- The pair read from a bucket. -/
def readBucket (z : Zend) (b : ZKey × Zval) : Bytes × Bytes :=
  match b.1 with
  | .name s => (cstr s, readVal z b.2)
  | .index _ => ([], readVal z b.2)

/-- The map read from a table. -/
def decoded (z : Zend) (ht : HashTable) : StdMap := firstWins compare (ht.live.map (readBucket z))

@[simp] theorem readVal_str (z : Zend) (s : Bytes) : readVal z (.str s) = cstr s := rfl

theorem readVal_of_ok {z : Zend} {v : Zval} {s : Bytes} (h : zStrval z v = .ok s) : readVal z v = cstr s := by
  simp [readVal, h]

theorem insertBucket_readable {z : Zend} {b : ZKey × Zval} (h : Readable z b) (m : StdMap) :
    insertBucket z m b = .ok (m.insertIfNew (readBucket z b).1 (readBucket z b).2) := by
  obtain ⟨⟨s, hs⟩, t, ht⟩ := h
  simp only [insertBucket, hs, zstrVal_name, ht, readBucket, readVal_of_ok ht]
  rfl

theorem insertBucket_unreadable {z : Zend} {b : ZKey × Zval} (h : ¬ Readable z b) (m : StdMap) :
    ∃ e, e.badRead ∧ insertBucket z m b = .error e := by
  obtain ⟨k, v⟩ := b
  cases k with
  | index n => exact ⟨.nullKey, rfl, rfl⟩
  | name s =>
    have hv : ∀ t, zStrval z v ≠ .ok t := fun t ht => h ⟨⟨s, rfl⟩, t, ht⟩
    cases v with
    | str t => exact absurd rfl (hv t)
    | null | bool | long | double | array | object | resource | reference =>
      refine ⟨.strval, rfl, ?_⟩
      simp only [zStrval] at hv
      simp only [insertBucket, zstrVal_name, zStrval]
      split at hv
      · exact absurd rfl (hv _)
      · rfl

theorem foldlM_insertBucket {z : Zend} {l : List (ZKey × Zval)} (h : ∀ b ∈ l, Readable z b) (m : StdMap) :
    l.foldlM (insertBucket z) m =
      .ok ((l.map (readBucket z)).foldl (fun m p => m.insertIfNew p.1 p.2) m) := by
  induction l generalizing m with
  | nil => rfl
  | cons b l ih =>
    rw [List.foldlM_cons, insertBucket_readable (h b (by simp))]
    exact ih (fun b' hb => h b' (by simp [hb])) _

theorem foldlM_insertBucket_error {z : Zend} {l : List (ZKey × Zval)} (h : ¬ ∀ b ∈ l, Readable z b)
    (m : StdMap) : ∃ e, e.badRead ∧ l.foldlM (insertBucket z) m = .error e := by
  induction l generalizing m with
  | nil => simp at h
  | cons b l ih =>
    rw [List.foldlM_cons]
    by_cases hb : Readable z b
    · rw [insertBucket_readable hb]
      exact ih (fun hl => h (by simpa [hb] using hl)) _
    · obtain ⟨e, he, hi⟩ := insertBucket_unreadable hb m
      exact ⟨e, he, by rw [hi]; rfl⟩

theorem live_eq_nil_of_count {ht : HashTable} (hs : ht.Sound) (h0 : ht.nNumOfElements = 0) : ht.live = [] := by
  rw [HashTable.nNumOfElements, hs.count] at h0
  exact List.length_eq_zero_iff.mp h0

theorem transferToStdMap_eq_foldlM {z : Zend} {ht : HashTable} (h0 : ht.nNumOfElements ≠ 0) :
    transferToStdMap z ht = ht.live.foldlM (insertBucket z) ∅ := by
  rw [transferToStdMap, if_neg h0, ← Table.foldlM_slots (insertBucket z) ∅ ht]
  congr 1
  funext m b
  obtain ⟨k, _ | v⟩ := b <;> rfl

theorem transferToStdMap_ok {z : Zend} {ht : HashTable} (hs : ht.Sound) (h : Decodable z ht) :
    transferToStdMap z ht = .ok (decoded z ht) := by
  by_cases h0 : ht.nNumOfElements = 0
  · have hl := live_eq_nil_of_count hs h0
    simp [transferToStdMap, h0, decoded, hl, firstWins]
  · rw [transferToStdMap_eq_foldlM h0]
    exact foldlM_insertBucket h ∅

theorem transferToStdMap_error {z : Zend} {ht : HashTable} (hs : ht.Sound) (h : ¬ Decodable z ht) :
    ∃ e, e.badRead ∧ transferToStdMap z ht = .error e := by
  by_cases h0 : ht.nNumOfElements = 0
  · refine absurd ?_ h
    simp [Decodable, live_eq_nil_of_count hs h0]
  · rw [transferToStdMap_eq_foldlM h0]
    exact foldlM_insertBucket_error h ∅

theorem transferToStdMap_eq_ok {z : Zend} {ht : HashTable} (hs : ht.Sound) {m : StdMap} :
    transferToStdMap z ht = .ok m ↔ Decodable z ht ∧ m = decoded z ht := by
  refine ⟨fun h => ?_, fun hx => ?_⟩
  · by_cases hd : Decodable z ht
    · rw [transferToStdMap_ok hs hd] at h
      exact ⟨hd, by simpa using h.symm⟩
    · obtain ⟨e, -, he⟩ := transferToStdMap_error hs hd
      rw [he] at h
      cases h
  · obtain ⟨hd, rfl⟩ := hx
    exact transferToStdMap_ok hs hd

/-! ## The maps PHP arrays stand for -/

/-- The string entries of an array. -/
def strEntry : ZKey × Zval → Option (Bytes × Bytes)
  | (.name s, .str t) => some (s, t)
  | _ => none

/-- The map an array of strings stands for. -/
def strMap (ht : HashTable) : StdMap := firstWins compare (ht.live.filterMap strEntry)

/-- An array of NUL-free string keys to NUL-free strings. -/
def StringMap (ht : HashTable) : Prop :=
  ∀ b ∈ ht.live, ∃ s t, b = (.name s, .str t) ∧ NulFree s ∧ NulFree t

theorem StringMap.decodable {z : Zend} {ht : HashTable} (h : StringMap ht) : Decodable z ht := by
  intro b hb
  obtain ⟨s, t, rfl, -, -⟩ := h b hb
  exact ⟨⟨s, rfl⟩, t, rfl⟩

theorem StringMap.decoded_eq {z : Zend} {ht : HashTable} (h : StringMap ht) : decoded z ht = strMap ht := by
  rw [decoded, strMap]
  congr 1
  unfold StringMap at h
  generalize ht.live = l at h ⊢
  induction l with
  | nil => rfl
  | cons b l ih =>
    obtain ⟨s, t, rfl, hs, hv⟩ := h b (by simp)
    simp only [List.map_cons, List.filterMap_cons, strEntry, readBucket, readVal_str, hs.cstr, hv.cstr,
      List.cons.injEq, true_and]
    exact ih fun b' hb => h b' (by simp [hb])

/-- The decoder returns the map an array of strings stands for. -/
theorem StringMap.transferToStdMap {z : Zend} {ht : HashTable} (h : StringMap ht) (hs : ht.Sound) :
    transferToStdMap z ht = .ok (strMap ht) := by
  rw [transferToStdMap_ok hs h.decodable, h.decoded_eq]

theorem getElem?_decoded (z : Zend) (ht : HashTable) (k : Bytes) :
    (decoded z ht)[k]? = ((ht.live.map (readBucket z)).find? (·.1 = k)).map Prod.snd :=
  getElem?_firstWins _ _

/-- Where only the name `k` is read as `k`, what is read is its entry. -/
theorem getElem?_decoded_eq {z : Zend} {ht : HashTable} {k : Bytes}
    (h : ∀ b ∈ ht.live, (readBucket z b).1 = k ↔ b.1 = .name k) :
    (decoded z ht)[k]? = (ht.find? (.name k)).map (readVal z) := by
  have hread : ∀ b ∈ ht.live, ((fun p : Bytes × Bytes => decide (p.1 = k)) ∘ readBucket z) b =
      decide (b.1 = .name k) := fun b hb => by simp [h b hb]
  have hval : Prod.snd ∘ readBucket z = readVal z ∘ Prod.snd := by
    funext b
    obtain ⟨n | s, v⟩ := b <;> rfl
  rw [getElem?_decoded, List.find?_map, List.find?_congr hread, Table.find?, Option.map_map, Option.map_map, hval]

/-- Names without a NUL are read back as they are. -/
def NamesNulFree (ht : HashTable) : Prop := ∀ b ∈ ht.live, ∃ s, b.1 = .name s ∧ NulFree s

theorem NamesNulFree.getElem?_decoded {z : Zend} {ht : HashTable} (h : NamesNulFree ht) (k : Bytes) :
    (decoded z ht)[k]? = (ht.find? (.name k)).map (readVal z) := by
  refine getElem?_decoded_eq fun b hb => ?_
  obtain ⟨s, hk, hs⟩ := h b hb
  simp [readBucket, hk, hs.cstr]

theorem NamesNulFree.sub_decoded {z : Zend} {ht : HashTable} (h : NamesNulFree ht) (k : Bytes) :
    (decoded z ht).sub k = ((ht.find? (.name k)).map (readVal z)).getD [] := by
  rw [StdMap.sub_eq, h.getElem?_decoded]

theorem StringMap.namesNulFree {ht : HashTable} (h : StringMap ht) : NamesNulFree ht := by
  intro b hb
  obtain ⟨s, t, rfl, hs, -⟩ := h b hb
  exact ⟨s, rfl, hs⟩

/-- A literal with keys that hold no NUL and stay strings. -/
theorem namesNulFree_arrayLiteral {l : List (Bytes × Zval)} (keys : List Bytes) (hl : l.map Prod.fst = keys)
    (hk : keys.Nodup ∧ ∀ k ∈ keys, symtableKey k = .name k) (hn : ∀ k ∈ keys, NulFree k) :
    NamesNulFree (arrayLiteral l) := by
  intro b hb
  rw [live_arrayLiteral keys hl hk] at hb
  obtain ⟨p, hp, rfl⟩ := List.mem_map.mp hb
  exact ⟨p.1, rfl, hn _ (hl ▸ List.mem_map_of_mem hp)⟩

theorem decodable_arrayLiteral_iff {z : Zend} {l : List (Bytes × Zval)} (keys : List Bytes)
    (hl : l.map Prod.fst = keys) (hk : keys.Nodup ∧ ∀ k ∈ keys, symtableKey k = .name k) :
    Decodable z (arrayLiteral l) ↔ ∀ p ∈ l, ∃ s, zStrval z p.2 = .ok s := by
  simp only [Decodable, live_arrayLiteral keys hl hk, List.forall_mem_map, Readable, ZKey.name.injEq, exists_eq',
    true_and]

/-! ## What the lookup compares -/

/-- The name whose entry a lookup of `key` finds. -/
def Zend.lookupName (z : Zend) (key : Bytes) : Bytes :=
  match z.keyLength with
  | .withNul => key
  | .withoutNul => cStr key

theorem zendStringInit_cStr (key : Bytes) : zendStringInit (cStr key) (getKeyLength key) = cStr key := by
  simp [zendStringInit, getKeyLength, cStr]

theorem keyMatches_cStr (z : Zend) (k : ZKey) (key : Bytes) :
    keyMatches z k (cStr key) = decide (k = .name (z.lookupName key)) := by
  cases k with
  | index n => simp [keyMatches]
  | name s =>
    cases hk : z.keyLength with
    | withoutNul => simp [keyMatches, stored, Zend.lookupName, hk, Bool.beq_eq_decide_eq]
    | withNul =>
      have : cStr s = cStr key ↔ s = key := ⟨cStr_injective, congrArg _⟩
      simp [keyMatches, stored, Zend.lookupName, hk, Bool.beq_eq_decide_eq, this]

theorem findEntry_eq (z : Zend) (ht : HashTable) (key : Bytes) :
    findEntry z ht key = ht.find? (.name (z.lookupName key)) := by
  simp only [findEntry, zendHashFind, zendStringInit_cStr, keyMatches_cStr, Table.find?]

theorem NamesNulFree.find?_cStr {ht : HashTable} (h : NamesNulFree ht) (key : Bytes) :
    ht.find? (.name (cStr key)) = none := by
  refine Table.find?_eq_none.mpr fun v hv => ?_
  obtain ⟨s, hs, hsn⟩ := h _ hv
  simp only [ZKey.name.injEq] at hs
  exact not_nulFree_cStr key (hs ▸ hsn)

/-- In an array whose names hold no NUL, a lookup of an absent name finds nothing. -/
theorem findEntry_eq_none {z : Zend} {ht : HashTable} {key : Bytes} (hn : NamesNulFree ht)
    (hf : z.keyLength = .withNul → ht.find? (.name key) = none) : findEntry z ht key = none := by
  rw [findEntry_eq, Zend.lookupName]
  cases hk : z.keyLength with
  | withNul => exact hf hk
  | withoutNul => exact hn.find?_cStr key

theorem transferIf_none {z : Zend} {src : Option Zval} : transferIf z none src = .ok ∅ := rfl

theorem transferIf_some {z : Zend} {v : Zval} {src : Option Zval} :
    transferIf z (some v) src = (zArrvalP src >>= transferToStdMap z) := rfl

end PolarisPhp
