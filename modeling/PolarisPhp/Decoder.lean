/-
What `TransferToStdMap` makes of an array that was changed before: entries
set, overwritten and removed in any order, the buckets of removed entries
left where they are or dropped at any time. Such an array holds a partial
map of strings (`Holds`); a change moves the array and the map alike
(`Holds.apply`), and the map held is the one decoded (`Holds.decodes`). So
the decoder loses and invents nothing (`decoder_exact`), whatever its loop
passes over.
-/
import PolarisPhp.Utils

namespace PolarisPhp

open Bytes FirstWins

/-! ## Changes -/

/-- What happens to an array of strings. -/
inductive ArrayOp where
  /-- `$array[$key] = $val` -/
  | set (key val : Bytes)
  /-- `unset($array[$key])` -/
  | unset (key : Bytes)
  /-- Zend drops the removed buckets from the `n`-th on -/
  | sweep (n : Nat)
  deriving DecidableEq, Repr

namespace ArrayOp

def apply (ht : HashTable) : ArrayOp → HashTable
  | .set key val => zendSymtableUpdate ht key (.str val)
  | .unset key => zendSymtableDel ht key
  | .sweep n => ht.sweep n

/-- What is set under each key afterwards, when it was `f` before. -/
def assign (f : Bytes → Option Bytes) : ArrayOp → Bytes → Option Bytes
  | .set key val => fun k => if k = key then some val else f k
  | .unset key => fun k => if k = key then none else f k
  | .sweep _ => f

/-- Its key stays a string, and no string of it holds a NUL. -/
def Plain : ArrayOp → Prop
  | .set key val => NulFree key ∧ ¬ SpellsIndex key ∧ NulFree val
  | .unset key => NulFree key ∧ ¬ SpellsIndex key
  | .sweep _ => True

instance : (op : ArrayOp) → Decidable op.Plain
  | .set key val => inferInstanceAs (Decidable (NulFree key ∧ ¬ SpellsIndex key ∧ NulFree val))
  | .unset key => inferInstanceAs (Decidable (NulFree key ∧ ¬ SpellsIndex key))
  | .sweep _ => .isTrue trivial

end ArrayOp

/-- The array that changes of an empty one leave. -/
def changed (ops : List ArrayOp) : HashTable := ops.foldl ArrayOp.apply Table.empty

/-- What they leave set under each key. -/
def current (ops : List ArrayOp) : Bytes → Option Bytes := ops.foldl ArrayOp.assign fun _ => none

/-- `ht` holds the strings `f` binds and nothing else, none with a NUL. -/
structure Holds (ht : HashTable) (f : Bytes → Option Bytes) : Prop where
  sound : ht.Sound
  find : ∀ k, ht.find? (.name k) = (f k).map .str
  index : ∀ n, ht.find? (.index n) = none
  nulFree : ∀ k v, f k = some v → NulFree k ∧ NulFree v

theorem holds_empty : Holds Table.empty fun _ => none :=
  ⟨Table.sound_empty, fun _ => rfl, fun _ => rfl, fun _ _ h => by cases h⟩

namespace Holds

variable {ht : HashTable} {f : Bytes → Option Bytes}

theorem set (h : Holds ht f) {key val : Bytes} (hp : (ArrayOp.set key val).Plain) :
    Holds (ArrayOp.apply ht (.set key val)) (ArrayOp.assign f (.set key val)) := by
  obtain ⟨hk, hs, hv⟩ := hp
  have hkey : symtableKey key = .name key := symtableKey_of_not_spells hs
  refine ⟨h.sound.put _ _, fun k => ?_, fun n => ?_, fun k v hb => ?_⟩
  · simp only [ArrayOp.apply, ArrayOp.assign, zendSymtableUpdate, hkey, Table.find?_put, ZKey.name.injEq]
    split
    · rfl
    · exact h.find k
  · simp only [ArrayOp.apply, zendSymtableUpdate, hkey, Table.find?_put, reduceCtorEq, if_false]
    exact h.index n
  · simp only [ArrayOp.assign] at hb
    split at hb
    · rename_i he
      cases hb
      exact ⟨he ▸ hk, hv⟩
    · exact h.nulFree k v hb

theorem unset (h : Holds ht f) {key : Bytes} (hp : (ArrayOp.unset key).Plain) :
    Holds (ArrayOp.apply ht (.unset key)) (ArrayOp.assign f (.unset key)) := by
  have hkey : symtableKey key = .name key := symtableKey_of_not_spells hp.2
  refine ⟨h.sound.unset _, fun k => ?_, fun n => ?_, fun k v hb => ?_⟩
  · simp only [ArrayOp.apply, ArrayOp.assign, zendSymtableDel, hkey, Table.find?_unset, ZKey.name.injEq]
    split
    · rfl
    · exact h.find k
  · simp only [ArrayOp.apply, zendSymtableDel, hkey, Table.find?_unset, reduceCtorEq, if_false]
    exact h.index n
  · simp only [ArrayOp.assign] at hb
    split at hb
    · cases hb
    · exact h.nulFree k v hb

theorem sweep (h : Holds ht f) (n : Nat) : Holds (ArrayOp.apply ht (.sweep n)) (ArrayOp.assign f (.sweep n)) :=
  ⟨h.sound.sweep n, fun k => (Table.find?_sweep ht n _).trans (h.find k),
    fun i => (Table.find?_sweep ht n _).trans (h.index i), h.nulFree⟩

/-- A change moves the array and what it holds alike. -/
theorem apply (h : Holds ht f) {op : ArrayOp} (hp : op.Plain) : Holds (op.apply ht) (op.assign f) := by
  cases op with
  | set key val => exact h.set hp
  | unset key => exact h.unset hp
  | sweep n => exact h.sweep n

theorem foldl (h : Holds ht f) {ops : List ArrayOp} (hp : ∀ op ∈ ops, op.Plain) :
    Holds (ops.foldl ArrayOp.apply ht) (ops.foldl ArrayOp.assign f) := by
  induction ops generalizing ht f with
  | nil => exact h
  | cons op ops ih =>
    have hop : op.Plain := hp op (by simp)
    exact ih (h.apply hop) fun op' hm => hp op' (by simp [hm])

end Holds

/-- After any changes the array holds what they leave set. -/
theorem holds_changed {ops : List ArrayOp} (h : ∀ op ∈ ops, op.Plain) : Holds (changed ops) (current ops) :=
  holds_empty.foldl h

/-! ## Decoding -/

/-- The decoder returns the map that binds each key to what `f` does. -/
def DecodesTo (z : Zend) (ht : HashTable) (f : Bytes → Option Bytes) : Prop :=
  ∃ m, transferToStdMap z ht = .ok m ∧ ∀ k : Bytes, m[k]? = f k

theorem DecodesTo.unique {z : Zend} {ht ht' : HashTable} {f : Bytes → Option Bytes} (h : DecodesTo z ht f)
    (h' : DecodesTo z ht' f) : transferToStdMap z ht = transferToStdMap z ht' := by
  obtain ⟨m, hm, hf⟩ := h
  obtain ⟨m', hm', hf'⟩ := h'
  have he : m = m' := Std.ExtTreeMap.ext_getElem? fun k => (hf k).trans (hf' k).symm
  rw [hm, hm', he]

/-- The strings of an array. -/
def stringsOf (ht : HashTable) (k : Bytes) : Option Bytes :=
  match ht.find? (.name k) with
  | some (.str s) => some s
  | some _ | none => none

theorem StringMap.holds {ht : HashTable} (h : StringMap ht) (hs : ht.Sound) : Holds ht (stringsOf ht) := by
  refine ⟨hs, fun k => ?_, fun n => ?_, fun k v hv => ?_⟩
  · unfold stringsOf
    cases hf : ht.find? (.name k) with
    | none => rfl
    | some v =>
      obtain ⟨s, t, he, -, -⟩ := h _ (Table.mem_of_find? hf)
      cases he
      rfl
  · refine Table.find?_eq_none.mpr fun v hv => ?_
    obtain ⟨s, t, he, -, -⟩ := h _ hv
    cases he
  · unfold stringsOf at hv
    split at hv
    · rename_i t hf
      obtain ⟨s, t', he, hsn, htn⟩ := h _ (Table.mem_of_find? hf)
      cases he
      cases hv
      exact ⟨hsn, htn⟩
    · cases hv
    · cases hv

namespace Holds

variable {ht : HashTable} {f : Bytes → Option Bytes}

theorem stringMap (h : Holds ht f) : StringMap ht := by
  intro ⟨k, v⟩ hb
  have hf : ht.find? k = some v := h.sound.find?_eq_some.mpr hb
  cases k with
  | index n =>
    rw [h.index n] at hf
    cases hf
  | name s =>
    rw [h.find s] at hf
    obtain ⟨t, ht, rfl⟩ := Option.map_eq_some_iff.mp hf
    exact ⟨s, t, rfl, h.nulFree s t ht⟩

/-- What an array holds is what is decoded from it. -/
theorem decodes (h : Holds ht f) (z : Zend) : DecodesTo z ht f := by
  refine ⟨_, transferToStdMap_ok h.sound h.stringMap.decodable, fun k => ?_⟩
  rw [h.stringMap.namesNulFree.getElem?_decoded, h.find k, Option.map_map]
  cases hf : f k with
  | none => rfl
  | some v =>
    have hv : NulFree v := (h.nulFree k v hf).2
    simp [hv.cstr]

end Holds

/-- The strings of a sound table stand under distinct keys. -/
theorem nodup_strEntry {ht : HashTable} (hs : ht.Sound) : ((ht.live.filterMap strEntry).map Prod.fst).Nodup := by
  have hsub : ∀ l : List (ZKey × Zval),
      (((l.filterMap strEntry).map Prod.fst).map ZKey.name).Sublist (l.map Prod.fst) := by
    intro l
    induction l with
    | nil => exact List.Sublist.refl _
    | cons b l ih =>
      obtain ⟨k, v⟩ := b
      rw [List.filterMap_cons, List.map_cons]
      cases hb : strEntry (k, v) with
      | none => exact ih.cons _
      | some p =>
        have hk : k = .name p.1 := by
          unfold strEntry at hb
          split at hb
          · rename_i he
            cases he
            cases hb
            rfl
          · cases hb
        rw [hk]
        exact ih.cons_cons _
  exact ((hsub ht.live).nodup hs.nodup).of_map ZKey.name

/-- The decoder loses and invents nothing: what it returns binds the keys
set, each to its current value, and depends on nothing else. -/
structure DecoderExact (z : Zend) : Prop where
  changes : ∀ ops : List ArrayOp, (∀ op ∈ ops, op.Plain) → DecodesTo z (changed ops) (current ops)
  buckets : ∀ ht : HashTable, ht.Sound → StringMap ht → DecodesTo z ht (stringsOf ht)
  history : ∀ ops ops' : List ArrayOp, (∀ op ∈ ops, op.Plain) → (∀ op ∈ ops', op.Plain) → current ops = current ops' →
    transferToStdMap z (changed ops) = transferToStdMap z (changed ops')
  order : ∀ ht ht' : HashTable, ht.Sound → ht'.Sound → StringMap ht → ht.live.Perm ht'.live →
    transferToStdMap z ht = transferToStdMap z ht'

/-- **The array decoder is exact**, over every history of an array and over
every row of buckets. -/
theorem decoder_exact (z : Zend) : DecoderExact z where
  changes := fun _ h => (holds_changed h).decodes z
  buckets := fun _ hs h => (h.holds hs).decodes z
  history := fun ops ops' h h' he => by
    have hd : DecodesTo z (changed ops) (current ops') := he ▸ (holds_changed h).decodes z
    exact hd.unique ((holds_changed h').decodes z)
  order := fun ht ht' hs hs' h hp => by
    have h' : StringMap ht' := fun b hb => h b (hp.mem_iff.mpr hb)
    have he : strMap ht = strMap ht' := firstWins_perm (nodup_strEntry hs) (hp.filterMap strEntry)
    rw [h.transferToStdMap hs, h'.transferToStdMap hs', he]

/-- `env` is removed and set again, behind `zone`; the decoder sees what it
sees where `zone` was set last. -/
theorem decoder_exact_reset :
    transferToStdMap (Zend.reading .withNul none) (changed [.set (lit "env") (lit "prod"),
        .set (lit "zone") (lit "gz"), .unset (lit "env"), .set (lit "env") (lit "test")]) =
      transferToStdMap (Zend.reading .withNul none) (changed [.set (lit "env") (lit "test"),
        .set (lit "zone") (lit "gz")]) := by
  refine (decoder_exact _).history _ _ (by decide) (by decide) ?_
  funext k
  have hne : lit "env" ≠ lit "zone" := by decide
  by_cases he : k = lit "env"
  · simp [current, ArrayOp.assign, he, hne]
  · simp [current, ArrayOp.assign, he]

end PolarisPhp
