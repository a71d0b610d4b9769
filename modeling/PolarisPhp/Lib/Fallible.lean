/-
Computations that may fail, in `Except`. A chain of steps succeeds exactly
when every step does (`bind_eq_ok`), and it can fail only in the ways its
steps can (`FailsOnly`).
-/
namespace Fallible

variable {ε α β : Type}

theorem bind_eq_ok {x : Except ε α} {f : α → Except ε β} {b : β} :
    x >>= f = .ok b ↔ ∃ a, x = .ok a ∧ f a = .ok b := by
  cases x with
  | error e => simp [bind, Except.bind]
  | ok a => simp [bind, Except.bind]

theorem pure_eq_ok {a b : α} : (pure a : Except ε α) = .ok b ↔ b = a := by
  simp [pure, Except.pure, eq_comm]

theorem exists_bind_pure_eq_ok {x : Except ε α} {f : α → β} :
    (∃ b, (x >>= fun a => pure (f a)) = .ok b) ↔ ∃ a, x = .ok a := by
  cases x <;> simp [bind, Except.bind, pure, Except.pure]

/-- Computations with the same successes succeed together or fail together. -/
theorem ok_iff_cases {x y : Except ε α} (h : ∀ a, x = .ok a ↔ y = .ok a) :
    (∃ a, x = .ok a ∧ y = .ok a) ∨ ∃ e e', x = .error e ∧ y = .error e' := by
  cases x with
  | ok a => exact .inl ⟨a, rfl, (h a).mp rfl⟩
  | error e =>
    cases y with
    | ok a => cases (h a).mpr rfl
    | error e' => exact .inr ⟨e, e', rfl, rfl⟩

/-- Every failure of `x` is a `P`. -/
def FailsOnly (P : ε → Prop) (x : Except ε α) : Prop := ∀ e, x = .error e → P e

theorem FailsOnly.ok {P : ε → Prop} (a : α) : FailsOnly P (.ok a : Except ε α) := fun _ h => by cases h

theorem FailsOnly.pure {P : ε → Prop} (a : α) : FailsOnly P (pure a : Except ε α) := FailsOnly.ok a

theorem FailsOnly.error {P : ε → Prop} {e : ε} (h : P e) : FailsOnly P (.error e : Except ε α) :=
  fun _ he => by cases he; exact h

theorem FailsOnly.bind {P : ε → Prop} {x : Except ε α} {f : α → Except ε β} (hx : FailsOnly P x)
    (hf : ∀ a, FailsOnly P (f a)) : FailsOnly P (x >>= f) := by
  cases x with
  | error e => exact FailsOnly.error (hx e rfl)
  | ok a => exact hf a

theorem FailsOnly.foldlM {P : ε → Prop} {f : β → α → Except ε β} (hf : ∀ b a, FailsOnly P (f b a)) (b : β)
    (l : List α) : FailsOnly P (l.foldlM f b) := by
  induction l generalizing b with
  | nil => exact FailsOnly.pure b
  | cons a l ih => exact (hf b a).bind ih

/-- A computation that fails only as `P` succeeds exactly when it does not fail as `P`. -/
theorem FailsOnly.exists_ok_iff {P : ε → Prop} {x : Except ε α} (h : FailsOnly P x) :
    (∃ a, x = .ok a) ↔ ∀ e, x = .error e → ¬ P e := by
  cases x with
  | error e => simpa using h e rfl
  | ok a => simp

end Fallible
