/-
Byte strings and their reading as C strings. A length-counted string may
hold NUL bytes; whatever receives it as a `char *` sees it up to the first
one (`cstr`), so the two readings agree exactly on the strings without a
NUL (`cstr_eq_self`).
-/
import Mathlib.Data.List.TakeWhile
import Mathlib.Data.UInt

abbrev Bytes := List UInt8

namespace Bytes

/-- The bytes of an ASCII literal. -/
def lit (s : String) : Bytes := s.toList.map fun c => c.toNat.toUInt8

/-- What a reader of a C string sees of `s`. -/
def cstr (s : Bytes) : Bytes := s.takeWhile (· != 0)

/-- `s` with the NUL that ends it, as `std::string::c_str` lays it out. -/
def cStr (s : Bytes) : Bytes := s ++ [0]

def NulFree (s : Bytes) : Prop := 0 ∉ s

instance (s : Bytes) : Decidable (NulFree s) := inferInstanceAs (Decidable (¬ _))

theorem nulFree_cstr (s : Bytes) : NulFree (cstr s) := by
  intro h
  have := List.mem_takeWhile_imp h
  simp at this

theorem cstr_eq_self {s : Bytes} : cstr s = s ↔ NulFree s := by
  constructor
  · intro h
    rw [← h]
    exact nulFree_cstr s
  · intro h
    refine List.takeWhile_eq_self_iff.mpr fun x hx => ?_
    simp only [bne_iff_ne, ne_eq]
    exact fun h0 => h (h0 ▸ hx)

theorem NulFree.cstr {s : Bytes} (h : NulFree s) : Bytes.cstr s = s := cstr_eq_self.mpr h

@[simp] theorem cstr_cstr (s : Bytes) : cstr (cstr s) = cstr s := (nulFree_cstr s).cstr

theorem not_nulFree_cStr (s : Bytes) : ¬ NulFree (cStr s) := by simp [NulFree, cStr]

theorem cStr_injective {s t : Bytes} (h : cStr s = cStr t) : s = t := List.append_cancel_right h

/-! ## Order -/

theorem cstr_cons (a : UInt8) (s : Bytes) : cstr (a :: s) = if a = 0 then [] else a :: cstr s := by
  by_cases ha : a = 0 <;> simp [cstr, ha]

theorem compare_cons (a b : UInt8) (s t : Bytes) : compare (a :: s) (b :: t) = (compare a b).then (compare s t) :=
  List.compareLex_cons_cons

theorem nil_compare_ne_gt (s : Bytes) : compare [] s ≠ .gt := by cases s <;> nofun

/-- Strings in order are in order as C strings. -/
theorem cstr_mono {s t : Bytes} (h : compare s t ≠ .gt) : compare (cstr s) (cstr t) ≠ .gt := by
  induction s generalizing t with
  | nil => exact nil_compare_ne_gt _
  | cons a s ih =>
    rw [cstr_cons]
    split
    · exact nil_compare_ne_gt _
    · rename_i ha
      cases t with
      | nil => exact absurd List.compareLex_cons_nil h
      | cons b t =>
        rw [compare_cons] at h
        -- no byte but the NUL is not after the NUL
        have hb : b ≠ 0 := by
          rintro rfl
          have hgt : compare a 0 = .gt := by
            rw [Std.compare_eq_gt]
            exact UInt8.pos_iff_ne_zero.mpr ha
          rw [hgt] at h
          exact h rfl
        rw [cstr_cons, if_neg hb, compare_cons]
        cases hc : compare a b with
        | lt => nofun
        | gt => exact absurd (by rw [hc]; rfl) h
        | eq =>
          rw [hc] at h
          exact ih h

end Bytes
