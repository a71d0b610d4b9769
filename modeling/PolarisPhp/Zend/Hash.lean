/-
The hash table operations the extension calls. Lookup compares a key's
length and its bytes. The `add_assoc_*` family takes C strings and writes
under symtable rules: a key that is the canonical spelling of a machine
integer becomes an integer key.
-/
import PolarisPhp.Lib.Decimal
import PolarisPhp.Zend.Value

namespace PolarisPhp

open Bytes Decimal

/-! ## Lookup -/

/-- `zend_string_init(p, n, _)`: the `n` bytes at `p`. -/
def zendStringInit (p : Bytes) (n : Nat) : Bytes := p.take n

/-- The bytes the table compares a string key by. -/
def stored : KeyLength → Bytes → Bytes
  | .withNul, s => cStr s
  | .withoutNul, s => s

/-- Does a bucket's key equal the string looked up? An integer key never does. -/
def keyMatches (z : Zend) : ZKey → Bytes → Bool
  | .name s, key => stored z.keyLength s == key
  | .index _, _ => false

/-- `zend_hash_find`; `none` is the `NULL` it returns when there is no such key. -/
def zendHashFind (z : Zend) (ht : HashTable) (key : Bytes) : Option Zval :=
  (ht.live.find? fun p => keyMatches z p.1 key).map Prod.snd

/-! ## Writing -/

/-- `ZEND_HANDLE_NUMERIC_STR`: the machine integer `s` is the canonical
spelling of. -/
def handleNumericStr (s : Bytes) : Option Int :=
  if spell (readInt s) = s ∧ -2 ^ 63 ≤ readInt s ∧ readInt s < 2 ^ 63 then some (readInt s) else none

def symtableKey (s : Bytes) : ZKey :=
  match handleNumericStr s with
  | some n => .index n
  | none => .name s

/-- `zend_symtable_update`. -/
def zendSymtableUpdate (ht : HashTable) (key : Bytes) (v : Zval) : HashTable := ht.put (symtableKey key) v

/-- `zend_symtable_del`. -/
def zendSymtableDel (ht : HashTable) (key : Bytes) : HashTable := ht.unset (symtableKey key)

def addAssocZval (ht : HashTable) (key : Bytes) (v : Zval) : HashTable := zendSymtableUpdate ht (cstr key) v

def addAssocLong (ht : HashTable) (key : Bytes) (n : Int64) : HashTable := addAssocZval ht key (.long n)

def addAssocBool (ht : HashTable) (key : Bytes) (b : Bool) : HashTable := addAssocZval ht key (.bool b)

/-- Copies the C string at `s`. -/
def addAssocString (ht : HashTable) (key s : Bytes) : HashTable := addAssocZval ht key (.str (cstr s))

/-- Copies all the bytes of `s`, whose length the caller passes. -/
def addAssocStringl (ht : HashTable) (key s : Bytes) : HashTable := addAssocZval ht key (.str s)

/-- The index after the largest the table ever held. -/
def nNextFreeElement (ht : HashTable) : Int :=
  ht.slots.foldl (fun n s => match s.1 with | .index h => max n (h + 1) | .name _ => n) 0

def addNextIndexZval (ht : HashTable) (v : Zval) : HashTable := ht.put (.index (nNextFreeElement ht)) v

/-- A PHP array literal with string keys. -/
def arrayLiteral (l : List (Bytes × Zval)) : HashTable :=
  l.foldl (fun ht p => zendSymtableUpdate ht p.1 p.2) Table.empty

/-- The table a row of appended values leaves. -/
def packed (l : List Zval) : HashTable := ⟨l.zipIdx.map fun p => (.index p.2, some p.1), l.length⟩

/-! ## Values a script reads and casts -/

/-- `$ht[key]`; an undefined index reads as `null`. -/
def fetchDim (ht : HashTable) (key : Bytes) : Zval := (ht.find? (symtableKey key)).getD .null

/-- `(string)$v`. -/
def castString (z : Zend) : Zval → Bytes
  | .str s => s
  | .long n => spell n.toInt
  | .null | .bool false => []
  | .bool true => lit "1"
  | .array _ => lit "Array"
  | .reference v => castString z v
  | v => z.toStr v

/-- `empty($v)`. -/
def phpEmpty : Zval → Bool
  | .null => true
  | .bool b => !b
  | .long n => n == 0
  | .double bits => bits == 0 || bits == 0x8000000000000000
  | .str s => s == [] || s == lit "0"
  | .array ht => HashTable.nNumOfElements ht == 0
  | .object _ => false
  | .resource handle => handle == 0
  | .reference v => phpEmpty v

/-! ## Facts -/

theorem handleNumericStr_eq_some {s : Bytes} {n : Int} :
    handleNumericStr s = some n ↔ s = spell n ∧ -2 ^ 63 ≤ n ∧ n < 2 ^ 63 := by
  unfold handleNumericStr
  refine ⟨fun h => ?_, fun hx => ?_⟩
  · split at h
    · rename_i hs
      simp only [Option.some.injEq] at h
      subst h
      exact ⟨hs.1.symm, hs.2⟩
    · cases h
  · obtain ⟨rfl, hr⟩ := hx
    rw [readInt_spell, if_pos ⟨rfl, hr⟩]

/-- The keys the symtable rules turn into integers. -/
def SpellsIndex (s : Bytes) : Prop := ∃ n : Int, s = spell n ∧ -2 ^ 63 ≤ n ∧ n < 2 ^ 63

theorem spellsIndex_iff {s : Bytes} : SpellsIndex s ↔ (handleNumericStr s).isSome := by
  simp only [SpellsIndex, Option.isSome_iff_exists, handleNumericStr_eq_some]

instance (s : Bytes) : Decidable (SpellsIndex s) := decidable_of_iff _ spellsIndex_iff.symm

theorem symtableKey_of_not_spells {s : Bytes} (h : ¬ SpellsIndex s) : symtableKey s = .name s := by
  unfold symtableKey
  split
  · rename_i n hn
    exact absurd ⟨n, handleNumericStr_eq_some.mp hn⟩ h
  · rfl

theorem symtableKey_of_spells {s : Bytes} (h : SpellsIndex s) : ∃ n, symtableKey s = .index n := by
  obtain ⟨n, hn⟩ := h
  exact ⟨n, by simp [symtableKey, handleNumericStr_eq_some.mpr hn]⟩

theorem find?_addAssocZval (ht : HashTable) (key : Bytes) (v : Zval) (k : ZKey) :
    (addAssocZval ht key v).find? k = if k = symtableKey (cstr key) then some v else ht.find? k :=
  Table.find?_put _ _ _ _

theorem arrayLiteral_eq_ofList (l : List (Bytes × Zval)) :
    arrayLiteral l = Table.ofList (l.map fun p => (symtableKey p.1, p.2)) := by
  rw [Table.ofList, List.foldl_map]
  rfl

theorem sound_arrayLiteral {l : List (Bytes × Zval)} (h : ∀ p ∈ l, p.2.Sound) :
    Zval.Sound (.array (arrayLiteral l)) := by
  rw [arrayLiteral_eq_ofList]
  refine .array (Table.sound_ofList _) fun k v hv => ?_
  obtain ⟨p, hp, he⟩ := List.mem_map.mp (Table.mem_of_live_ofList hv)
  simp only [Prod.mk.injEq] at he
  exact he.2 ▸ h p hp

theorem sound_arrayLiteral_str {l : List (Bytes × Zval)} (h : ∀ p ∈ l, ∃ t, p.2 = .str t) :
    Zval.Sound (.array (arrayLiteral l)) := by
  refine sound_arrayLiteral fun p hp => ?_
  obtain ⟨t, ht⟩ := h p hp
  rw [ht]
  exact .str

/-- A literal with distinct keys that stay strings holds its entries, in order. -/
theorem live_arrayLiteral {l : List (Bytes × Zval)} (keys : List Bytes) (hl : l.map Prod.fst = keys)
    (hk : keys.Nodup ∧ ∀ k ∈ keys, symtableKey k = .name k) :
    (arrayLiteral l).live = l.map fun p => (.name p.1, p.2) := by
  subst hl
  have hn : (l.map fun p => (symtableKey p.1, p.2)) = l.map fun p => (.name p.1, p.2) :=
    List.map_congr_left fun p hp => by rw [hk.2 p.1 (List.mem_map_of_mem hp)]
  rw [arrayLiteral_eq_ofList, hn]
  refine Table.live_ofList ?_
  rw [List.map_map, show Prod.fst ∘ (fun p : Bytes × Zval => (ZKey.name p.1, p.2)) = ZKey.name ∘ Prod.fst from rfl,
    ← List.map_map]
  exact hk.1.map fun _ _ hab => by simpa using hab

section Literal

variable {l : List (Bytes × Zval)} (keys : List Bytes) (hl : l.map Prod.fst = keys)
  (hk : keys.Nodup ∧ ∀ k ∈ keys, symtableKey k = .name k)
include hl hk

/-- Every entry is found under its key. -/
theorem find?_arrayLiteral {k : Bytes} {v : Zval} (h : (k, v) ∈ l) : (arrayLiteral l).find? (.name k) = some v := by
  have hs : (arrayLiteral l).Sound := by
    rw [arrayLiteral_eq_ofList]
    exact Table.sound_ofList _
  rw [hs.find?_eq_some, live_arrayLiteral keys hl hk]
  exact List.mem_map.mpr ⟨_, h, rfl⟩

/-- There is nothing under any other key. -/
theorem find?_arrayLiteral_none {k : Bytes} (h : k ∉ keys) : (arrayLiteral l).find? (.name k) = none := by
  refine Table.find?_eq_none.mpr fun v hv => h ?_
  rw [live_arrayLiteral keys hl hk] at hv
  obtain ⟨p, hp, he⟩ := List.mem_map.mp hv
  cases he
  exact hl ▸ List.mem_map_of_mem (f := Prod.fst) hp

end Literal

/-! ## Appended values -/

theorem packed_append (l : List Zval) (v : Zval) :
    packed (l ++ [v]) = ⟨(packed l).slots ++ [(.index l.length, some v)], l.length + 1⟩ := by
  simp [packed, List.zipIdx_append]

theorem nNextFreeElement_packed (l : List Zval) : nNextFreeElement (packed l) = l.length := by
  induction l using List.reverseRecOn with
  | nil => rfl
  | append_singleton l v ih =>
    simp only [nNextFreeElement] at ih ⊢
    rw [packed_append, List.foldl_append, ih]
    simp

theorem live_packed (l : List Zval) : (packed l).live = l.zipIdx.map fun p => (.index p.2, p.1) := by
  simp [Table.live, packed, List.filterMap_map, Function.comp_def, Table.entry]

theorem find?_packed (l : List Zval) (i : Nat) : (packed l).find? (.index i) = l[i]? := by
  induction l using List.reverseRecOn with
  | nil => simp [packed, Table.find?, Table.live]
  | append_singleton l v ih =>
    have hl : (packed (l ++ [v])).live = (packed l).live ++ [(.index l.length, v)] := by
      simp [live_packed, List.zipIdx_append]
    unfold Table.find? at ih ⊢
    rw [hl, List.find?_append, Option.map_or, ih]
    rcases Nat.lt_trichotomy i l.length with h | rfl | h
    · simp [h, List.getElem?_append_left h]
    · simp
    · have hne : ¬ (l.length : Int) = i := by omega
      have hlast : (l ++ [v])[i]? = none := List.getElem?_eq_none (by simpa using Nat.succ_le_of_lt h)
      simp [List.getElem?_eq_none h.le, hne, hlast]

theorem addNextIndexZval_packed (l : List Zval) (v : Zval) : addNextIndexZval (packed l) v = packed (l ++ [v]) := by
  have hn : (packed l).find? (.index l.length) = none := by
    rw [find?_packed]
    simp
  rw [addNextIndexZval, nNextFreeElement_packed, Table.put, hn, packed_append]
  rfl

/-- Appending values one by one. -/
theorem foldl_addNextIndexZval {α : Type} (f : α → Zval) (l : List α) :
    l.foldl (fun ht a => addNextIndexZval ht (f a)) Table.empty = packed (l.map f) := by
  induction l using List.reverseRecOn with
  | nil => rfl
  | append_singleton l a ih => rw [List.foldl_append, ih, List.map_append, List.foldl_cons, List.foldl_nil,
      addNextIndexZval_packed]; rfl

end PolarisPhp
