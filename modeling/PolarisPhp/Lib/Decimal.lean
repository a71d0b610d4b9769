/-
Decimal numbers as byte strings: the canonical spelling of an integer
(`spell`: an optional `-`, no leading zero, no `+`), and the reading of the
C library's `strtol` family (`readInt`: blanks, an optional sign, the
longest run of digits). Reading undoes spelling (`readInt_spell`); `atol`
keeps every number of its range and saturates outside (`toInt_atol_spell_nat`).
-/
import PolarisPhp.Lib.Bytes

namespace Decimal

/-- The digits of `n`, most significant first. -/
def spellNat (n : Nat) : Bytes := (Nat.toDigits 10 n).map fun c => c.toNat.toUInt8

/-- The canonical decimal spelling. -/
def spell (n : Int) : Bytes := if n < 0 then 45 :: spellNat n.natAbs else spellNat n.natAbs

def isDigit (b : UInt8) : Bool := 48 ≤ b && b ≤ 57

/-- `isspace` in the C locale. -/
def isSpace (b : UInt8) : Bool := b == 32 || (9 ≤ b && b ≤ 13)

/-- The number a run of digits spells. -/
def value (ds : Bytes) : Nat := ds.foldl (fun n d => 10 * n + (d.toNat - 48)) 0

/-- The number at the start of `s`, `0` when there is none. -/
def readInt (s : Bytes) : Int :=
  match s.dropWhile isSpace with
  | 45 :: ds => -(value (ds.takeWhile isDigit) : Int)
  | 43 :: ds => value (ds.takeWhile isDigit)
  | ds => value (ds.takeWhile isDigit)

/-- `atol` on a platform whose `long` has 64 bits: out of range it saturates. -/
def atol (s : Bytes) : Int64 := Int64.ofIntClamp (readInt s)

/-- `atoi`: `atol` converted to `int`. -/
def atoi (s : Bytes) : Int32 := (atol s).toInt32

/-! ## Spelling -/

theorem digit_toNat {c : Char} (h : c.isDigit) : c.toNat.toUInt8.toNat = c.toNat ∧ 48 ≤ c.toNat ∧ c.toNat ≤ 57 := by
  have h1 : 48 ≤ c.toNat ∧ c.toNat ≤ 57 := by
    simp only [Char.isDigit, Bool.and_eq_true, decide_eq_true_eq] at h
    exact ⟨UInt32.le_iff_toNat_le.mp h.1, UInt32.le_iff_toNat_le.mp h.2⟩
  refine ⟨?_, h1⟩
  have : c.toNat < 256 := by omega
  simp [Nat.toUInt8, Nat.mod_eq_of_lt this]

theorem isDigit_toDigits {n : Nat} {c : Char} (h : c ∈ Nat.toDigits 10 n) : c.isDigit :=
  Nat.isDigit_of_mem_toDigits (by decide) (by decide) h

theorem isDigit_spellNat {n : Nat} {b : UInt8} (h : b ∈ spellNat n) : isDigit b := by
  obtain ⟨c, hc, rfl⟩ := List.mem_map.mp h
  obtain ⟨he, hlo, hhi⟩ := digit_toNat (isDigit_toDigits hc)
  simp only [isDigit, Bool.and_eq_true, decide_eq_true_eq, UInt8.le_iff_toNat_le, he]
  exact ⟨hlo, hhi⟩

theorem spellNat_ne_nil (n : Nat) : spellNat n ≠ [] := by simp [spellNat, Nat.toDigits_ne_nil]

theorem value_spellNat (n : Nat) : value (spellNat n) = n := by
  have h : ∀ (l : List Char) (i : Nat), (∀ c ∈ l, c.isDigit) →
      (l.map fun c => c.toNat.toUInt8).foldl (fun n (d : UInt8) => 10 * n + (d.toNat - 48)) i =
        Nat.ofDigitChars 10 l i := by
    intro l
    induction l with
    | nil => intro i _; rfl
    | cons c l ih =>
      intro i hl
      simp only [List.map_cons, List.foldl_cons, Nat.ofDigitChars_cons, (digit_toNat (hl c (by simp))).1]
      exact ih _ fun c' hc' => hl c' (by simp [hc'])
  rw [value, spellNat, h _ _ fun c hc => isDigit_toDigits hc]
  exact Nat.ofDigitChars_ten_toDigits

theorem takeWhile_spellNat (n : Nat) : (spellNat n).takeWhile isDigit = spellNat n :=
  List.takeWhile_eq_self_iff.mpr fun _ hb => isDigit_spellNat hb

theorem isDigit_bounds {b : UInt8} (h : isDigit b) : 48 ≤ b.toNat ∧ b.toNat ≤ 57 := by
  simpa [isDigit, UInt8.le_iff_toNat_le] using h

theorem not_isSpace_of_isDigit {b : UInt8} (h : isDigit b) : isSpace b = false := by
  obtain ⟨hlo, -⟩ := isDigit_bounds h
  have hne : b ≠ 32 := by rintro rfl; simp at hlo
  have hlt : ¬ b ≤ 13 := by
    rw [UInt8.le_iff_toNat_le]
    intro hb
    have : (13 : UInt8).toNat = 13 := rfl
    omega
  simp [isSpace, hne, hlt]

/-- A spelled number starts with a digit or with its sign. -/
theorem spellNat_cons (n : Nat) : ∃ b ds, spellNat n = b :: ds ∧ isDigit b := by
  cases hs : spellNat n with
  | nil => exact absurd hs (spellNat_ne_nil n)
  | cons b ds => exact ⟨b, ds, rfl, isDigit_spellNat (n := n) (hs ▸ by simp)⟩

theorem readInt_spellNat (n : Nat) : readInt (spellNat n) = n := by
  obtain ⟨b, ds, hs, hb⟩ := spellNat_cons n
  have hv := value_spellNat n
  rw [← takeWhile_spellNat n] at hv
  obtain ⟨hlo, -⟩ := isDigit_bounds hb
  have hdrop : (spellNat n).dropWhile isSpace = b :: ds := by
    rw [hs, List.dropWhile_cons_of_neg (by simp [not_isSpace_of_isDigit hb])]
  rw [hs] at hv
  unfold readInt
  rw [hdrop]
  split
  · rename_i h
    simp only [List.cons.injEq] at h
    rw [h.1] at hlo
    simp at hlo
  · rename_i h
    simp only [List.cons.injEq] at h
    rw [h.1] at hlo
    simp at hlo
  · exact congrArg Int.ofNat hv

/-- Reading a spelled integer gives it back. -/
theorem readInt_spell (n : Int) : readInt (spell n) = n := by
  unfold spell
  split
  · rename_i h
    have hd : (45 :: spellNat n.natAbs).dropWhile isSpace = 45 :: spellNat n.natAbs :=
      List.dropWhile_cons_of_neg (by decide)
    simp only [readInt, hd, takeWhile_spellNat, value_spellNat]
    omega
  · rw [readInt_spellNat]
    omega

theorem nulFree_spell (n : Int) : Bytes.NulFree (spell n) := by
  have hd : ∀ k, (0 : UInt8) ∉ spellNat k := fun k hk => by
    have := isDigit_spellNat hk
    simp [isDigit] at this
  unfold spell
  split
  · simp [Bytes.NulFree, hd]
  · exact hd _

/-! ## Ranges -/

theorem toInt_atol_spell {n : Int} (hlo : -2 ^ 63 ≤ n) (hhi : n < 2 ^ 63) : (atol (spell n)).toInt = n := by
  rw [atol, readInt_spell, Int64.toInt_ofIntClamp]
  · exact hlo
  · exact Int.le_sub_one_of_lt hhi

theorem atol_spell (n : Int64) : atol (spell n.toInt) = n :=
  Int64.toInt_inj.mp (toInt_atol_spell n.le_toInt n.toInt_lt)

theorem toInt_atoi_spell {n : Int} (hlo : -2 ^ 31 ≤ n) (hhi : n < 2 ^ 31) : (atoi (spell n)).toInt = n := by
  rw [atoi, Int64.toInt_toInt32, toInt_atol_spell (by omega) (by omega)]
  exact Int.bmod_eq_of_le (by omega) (by omega)

theorem atoi_spell (n : Int32) : atoi (spell n.toInt) = n :=
  Int32.toInt_inj.mp (toInt_atoi_spell n.le_toInt n.toInt_lt)

/-- A conversion between the widths' signs keeps a number both hold. -/
theorem toNat_toUInt64 {x : Int64} {n : Nat} (h : x.toInt = n) : x.toUInt64.toNat = n := by
  have hb : x.toBitVec.toInt = n := h
  rw [BitVec.toInt_eq_toNat_cond] at hb
  have ht : x.toUInt64.toNat = x.toBitVec.toNat := rfl
  have := x.toBitVec.isLt
  split at hb <;> omega

/-- A natural number cut at the end of `long`. -/
def clampLong (n : Nat) : Nat := min n (2 ^ 63 - 1)

/-- What `atol` reads of a spelled natural number. -/
theorem toInt_atol_spell_nat (n : Nat) : (atol (spell n)).toInt = clampLong n := by
  unfold clampLong
  by_cases h : n < 2 ^ 63
  · rw [toInt_atol_spell (by omega) (by omega)]
    omega
  · have hmin : Int64.minValue.toInt = -2 ^ 63 := rfl
    have hmax : Int64.maxValue.toInt = 2 ^ 63 - 1 := rfl
    rw [atol, readInt_spell, Int64.ofIntClamp, dif_pos (by omega), dif_neg (by omega), hmax]
    omega

/-- What reaches an unsigned 64-bit parameter. -/
theorem toNat_atol_spell (n : Nat) : (atol (spell n)).toUInt64.toNat = clampLong n :=
  toNat_toUInt64 (toInt_atol_spell_nat n)

/-- What reaches an `int`. -/
theorem toInt_atoi_spell_nat (n : Nat) : (atoi (spell n)).toInt = (clampLong n : Int).bmod (2 ^ 32) := by
  rw [atoi, Int64.toInt_toInt32, toInt_atol_spell_nat]

/-- What reaches an unsigned 32-bit parameter. -/
theorem toNat_atoi_spell (n : Nat) : (atoi (spell n)).toUInt32.toNat = clampLong n % 2 ^ 32 := by
  have hi : (atoi (spell n)).toBitVec.toInt = (clampLong n : Int).bmod (2 ^ 32) := toInt_atoi_spell_nat n
  have ht : (atoi (spell n)).toUInt32.toNat = (atoi (spell n)).toBitVec.toNat := rfl
  have hlt := (atoi (spell n)).toBitVec.isLt
  have hm : ((atoi (spell n)).toBitVec.toNat : Int) % (2 ^ 32 : Nat) = clampLong n % (2 ^ 32 : Nat) := by
    rw [← Int.bmod_emod, ← BitVec.toInt_eq_toNat_bmod, hi, Int.bmod_emod]
  rw [ht]
  omega

/-- Through `atol` a spelled number reaches an unsigned parameter unchanged
exactly below the range of `long`. -/
theorem toUInt64_atol_spell (n : UInt64) : (atol (spell n.toNat)).toUInt64 = n ↔ n.toNat < 2 ^ 63 := by
  rw [← UInt64.toNat_inj, toNat_atol_spell, clampLong]
  omega

/-- Two numbers are cut to one only at the end of `long` or beyond. -/
theorem clampLong_eq_iff {m n : Nat} : clampLong m = clampLong n ↔ m = n ∨ 2 ^ 63 - 1 ≤ m ∧ 2 ^ 63 - 1 ≤ n := by
  unfold clampLong
  omega

end Decimal
