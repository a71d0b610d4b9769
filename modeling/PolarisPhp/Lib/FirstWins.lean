/-
Ordered maps filled by insertion that never overwrites (`std::map::insert`):
the map a row of entries leaves binds each key to the value of its first
entry, so rows with distinct keys are read back whole and in any order
(`firstWins_perm`).
-/
import Mathlib.Data.List.Nodup

open Std

namespace FirstWins

variable {K V : Type} {cmp : K → K → Ordering} [TransCmp cmp] [LawfulEqCmp cmp]

/-- The map that inserting the entries in order leaves. -/
def firstWins (cmp : K → K → Ordering) [TransCmp cmp] (l : List (K × V)) : ExtTreeMap K V cmp :=
  l.foldl (fun m p => m.insertIfNew p.1 p.2) ∅

section DecEq

variable [DecidableEq K]

theorem getElem?_foldl (l : List (K × V)) (m : ExtTreeMap K V cmp) (k : K) :
    (l.foldl (fun m p => m.insertIfNew p.1 p.2) m)[k]? =
      (m[k]?).or ((l.find? (·.1 = k)).map Prod.snd) := by
  induction l generalizing m with
  | nil => simp
  | cons p l ih =>
    rw [List.foldl_cons, ih, ExtTreeMap.getElem?_insertIfNew, List.find?_cons]
    by_cases hk : p.1 = k
    · subst hk
      cases hm : m[p.1]? with
      | none =>
        have hn : p.1 ∉ m := by simp [ExtTreeMap.mem_iff_isSome_getElem?, hm]
        simp [hn]
      | some v =>
        have hn : p.1 ∈ m := by simp [ExtTreeMap.mem_iff_isSome_getElem?, hm]
        simp [hn]
    · have hc : cmp p.1 k ≠ .eq := fun h => hk (LawfulEqCmp.eq_of_compare h)
      simp [hk, hc]

theorem getElem?_firstWins (l : List (K × V)) (k : K) :
    (firstWins cmp l)[k]? = (l.find? (·.1 = k)).map Prod.snd := by
  simp [firstWins, getElem?_foldl]

/-- With distinct keys every entry is bound. -/
theorem getElem?_firstWins_nodup {l : List (K × V)} (h : (l.map Prod.fst).Nodup) {k : K} {v : V} :
    (firstWins cmp l)[k]? = some v ↔ (k, v) ∈ l := by
  rw [getElem?_firstWins]
  constructor
  · intro hf
    obtain ⟨⟨k', v'⟩, hp, rfl⟩ := Option.map_eq_some_iff.mp hf
    have hk : k' = k := by simpa using List.find?_some hp
    exact hk ▸ List.mem_of_find?_eq_some hp
  · intro hm
    cases hf : l.find? (·.1 = k) with
    | none =>
      have := List.find?_eq_none.mp hf _ hm
      simp at this
    | some p =>
      have hk : p.1 = k := by simpa using List.find?_some hf
      have := List.inj_on_of_nodup_map h (List.mem_of_find?_eq_some hf) hm hk
      rw [this]
      rfl

end DecEq

theorem ext_iff_bindings {m m' : ExtTreeMap K V cmp} :
    m = m' ↔ ∀ (k : K) (v : V), m[k]? = some v ↔ m'[k]? = some v := by
  constructor
  · rintro rfl k v
    exact Iff.rfl
  · intro h
    refine ExtTreeMap.ext_getElem? fun k => Option.ext fun v => h k v

/-- The order of entries with distinct keys does not matter. -/
theorem firstWins_perm {l l' : List (K × V)} (h : (l.map Prod.fst).Nodup) (hp : l.Perm l') :
    firstWins cmp l = firstWins cmp l' := by
  classical
  have h' : (l'.map Prod.fst).Nodup := (hp.map Prod.fst).nodup_iff.mp h
  refine ext_iff_bindings.mpr fun k v => ?_
  rw [getElem?_firstWins_nodup h, getElem?_firstWins_nodup h', hp.mem_iff]

theorem nodup_toList (m : ExtTreeMap K V cmp) : (m.toList.map Prod.fst).Nodup := by
  rw [List.nodup_iff_pairwise_ne, List.pairwise_map]
  refine m.distinct_keys_toList.imp ?_
  intro p q h he
  exact h (by rw [he]; exact ReflCmp.compare_self)

end FirstWins
