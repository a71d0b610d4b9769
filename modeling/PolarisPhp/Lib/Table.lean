/-
Insertion-ordered tables with tombstones: a row of slots, each with a key
and a value or the mark that its entry was removed, and a counter of the
entries left. What a table holds is its live slots, in order (`live`);
`find?` and every fold over the slots depend on nothing else.

`Sound` is the representation invariant: no key is live twice and the
counter counts the live slots. `put`, `unset` and `sweep` keep it, whatever
tombstones lie between.
-/
import Mathlib.Data.List.Nodup

structure Table (K V : Type) where
  slots : List (K × Option V)
  count : Nat

namespace Table

variable {K V : Type}

def empty : Table K V := ⟨[], 0⟩

/-- The entry in a slot, unless it was removed. -/
def entry (s : K × Option V) : Option (K × V) := s.2.map (s.1, ·)

/-- The entries, in slot order. -/
def live (t : Table K V) : List (K × V) := t.slots.filterMap entry

/-- No key is live twice, and the counter counts the live slots. -/
structure Sound (t : Table K V) : Prop where
  nodup : (t.live.map Prod.fst).Nodup
  count : t.count = t.live.length

@[simp] theorem live_empty : (empty : Table K V).live = [] := rfl

theorem sound_empty : (empty : Table K V).Sound := ⟨List.nodup_nil, rfl⟩

/-- A loop that skips removed slots is a loop over the entries. -/
theorem foldlM_slots {m : Type → Type} [Monad m] [LawfulMonad m] {β : Type} (f : β → K × V → m β) (b : β)
    (t : Table K V) :
    t.slots.foldlM (fun b s => match s.2 with | none => pure b | some v => f b (s.1, v)) b =
      t.live.foldlM f b := by
  unfold live
  induction t.slots generalizing b with
  | nil => rfl
  | cons s l ih =>
    obtain ⟨k, _ | v⟩ := s
    · simp only [List.foldlM_cons, entry, pure_bind]
      exact ih b
    · simp only [List.foldlM_cons, entry]
      exact bind_congr fun b' => ih b'

/-! ## Tombstones -/

/-- Drop the removed slots from the `n`-th on; with `n = 0`, all of them. -/
def sweep (t : Table K V) (n : Nat) : Table K V :=
  { t with slots := t.slots.take n ++ (t.slots.drop n).filter fun s => s.2.isSome }

@[simp] theorem live_sweep (t : Table K V) (n : Nat) : (t.sweep n).live = t.live := by
  have hf : ∀ l : List (K × Option V), (l.filter fun s => s.2.isSome).filterMap entry = l.filterMap entry := by
    intro l
    induction l with
    | nil => rfl
    | cons s l ih =>
      obtain ⟨k, _ | v⟩ := s <;> simp [List.filterMap_cons, entry, ih]
  have hl : (t.sweep n).live = (t.slots.take n ++ t.slots.drop n).filterMap entry := by
    simp only [live, sweep, List.filterMap_append, hf]
  rw [hl, List.take_append_drop, live]

theorem Sound.sweep {t : Table K V} (h : t.Sound) (n : Nat) : (t.sweep n).Sound := by
  have hc : (t.sweep n).count = t.count := rfl
  refine ⟨?_, ?_⟩
  · rw [live_sweep]
    exact h.nodup
  · rw [live_sweep, hc, h.count]

/-! ## Reading and writing -/

section DecEq

variable [DecidableEq K]

/-- The value of the first live slot with key `k`. -/
def find? (t : Table K V) (k : K) : Option V := (t.live.find? (·.1 = k)).map Prod.snd

/-- Write `v` under `k`: in place when `k` is live, in a new slot otherwise. -/
def put (t : Table K V) (k : K) (v : V) : Table K V :=
  if (t.find? k).isSome then
    { t with slots := t.slots.map fun s => if s.1 = k ∧ s.2.isSome then (k, some v) else s }
  else ⟨t.slots ++ [(k, some v)], t.count + 1⟩

/-- Remove the entry of `k`: its slot stays, with the mark. -/
def unset (t : Table K V) (k : K) : Table K V :=
  if (t.find? k).isSome then ⟨t.slots.map fun s => if s.1 = k then (s.1, none) else s, t.count - 1⟩ else t

/-- The table a list of writes leaves. -/
def ofList (l : List (K × V)) : Table K V := l.foldl (fun t p => t.put p.1 p.2) empty

@[simp] theorem find?_empty (k : K) : (empty : Table K V).find? k = none := rfl

theorem mem_of_find? {t : Table K V} {k : K} {v : V} (h : t.find? k = some v) : (k, v) ∈ t.live := by
  simp only [find?, Option.map_eq_some_iff] at h
  obtain ⟨⟨k', v'⟩, hf, rfl⟩ := h
  have hk : k' = k := by simpa using List.find?_some hf
  subst hk
  exact List.mem_of_find?_eq_some hf

theorem find?_eq_none {t : Table K V} {k : K} : t.find? k = none ↔ ∀ v, (k, v) ∉ t.live := by
  simp only [find?, Option.map_eq_none_iff, List.find?_eq_none, decide_eq_true_eq, Prod.forall]
  exact ⟨fun h v hv => h k v hv rfl, fun h k' v hv he => h v (he ▸ hv)⟩

/-- In a sound table an entry is what its key finds. -/
theorem Sound.find?_eq_some {t : Table K V} (h : t.Sound) {k : K} {v : V} :
    t.find? k = some v ↔ (k, v) ∈ t.live := by
  refine ⟨mem_of_find?, fun hm => ?_⟩
  cases hf : t.find? k with
  | none => exact absurd hm (find?_eq_none.mp hf v)
  | some w =>
    have := List.inj_on_of_nodup_map h.nodup (mem_of_find? hf) hm rfl
    simp only [Prod.mk.injEq, true_and] at this
    rw [this]

theorem live_put_new {t : Table K V} {k : K} {v : V} (h : t.find? k = none) :
    (t.put k v).live = t.live ++ [(k, v)] := by
  simp [put, h, live, entry]

theorem live_put_old {t : Table K V} {k : K} {v w : V} (h : t.find? k = some w) :
    (t.put k v).live = t.live.map fun p => if p.1 = k then (k, v) else p := by
  simp only [put, h, Option.isSome_some, if_true, live, List.map_filterMap, List.filterMap_map]
  refine List.filterMap_congr fun s _ => ?_
  obtain ⟨k', _ | v'⟩ := s
  · simp [entry]
  · by_cases hk : k' = k <;> simp [entry, hk]

theorem find?_put_self (t : Table K V) (k : K) (v : V) : (t.put k v).find? k = some v := by
  cases h : t.find? k with
  | none =>
    have hn : t.live.find? (·.1 = k) = none := by simpa [find?] using h
    simp [find?, live_put_new h, List.find?_append, hn]
  | some w =>
    simp only [find?, live_put_old h, List.find?_map, Option.map_map]
    have hc : ((fun p : K × V => decide (p.1 = k)) ∘ fun p => if p.1 = k then (k, v) else p) =
        fun p => decide (p.1 = k) := by
      funext p
      by_cases hp : p.1 = k <;> simp [hp]
    rw [hc]
    obtain ⟨p, hp, -⟩ := Option.map_eq_some_iff.mp (show (t.live.find? (·.1 = k)).map Prod.snd = some w from h)
    have hk : p.1 = k := by simpa using List.find?_some hp
    simp [hp, hk]

theorem find?_put_other (t : Table K V) {k k' : K} (v : V) (hne : k' ≠ k) :
    (t.put k v).find? k' = t.find? k' := by
  cases h : t.find? k with
  | none =>
    simp only [find?, live_put_new h, List.find?_append]
    cases t.live.find? (·.1 = k') with
    | some p => rfl
    | none => simp [hne.symm]
  | some w =>
    simp only [find?, live_put_old h, List.find?_map, Option.map_map]
    have hc : ((fun p : K × V => decide (p.1 = k')) ∘ fun p => if p.1 = k then (k, v) else p) =
        fun p => decide (p.1 = k') := by
      funext p
      by_cases hp : p.1 = k
      · simp [hp, hne.symm]
      · simp [hp]
    rw [hc]
    cases hf : t.live.find? (·.1 = k') with
    | none => rfl
    | some p =>
      have hp : p.1 = k' := by simpa using List.find?_some hf
      have : p.1 ≠ k := fun he => hne (hp ▸ he)
      simp [this]

theorem find?_put (t : Table K V) (k k' : K) (v : V) :
    (t.put k v).find? k' = if k' = k then some v else t.find? k' := by
  split
  · rename_i h
    rw [h, find?_put_self]
  · rename_i h
    exact find?_put_other t v h

theorem mem_live_put {t : Table K V} {k k' : K} {v v' : V} (h : (k', v') ∈ (t.put k v).live) :
    (k', v') ∈ t.live ∨ (k', v') = (k, v) := by
  cases hf : t.find? k with
  | none => simpa [live_put_new hf] using h
  | some w =>
    rw [live_put_old hf] at h
    obtain ⟨p, hp, he⟩ := List.mem_map.mp h
    split at he
    · exact .inr he.symm
    · exact .inl (he ▸ hp)

theorem Sound.put {t : Table K V} (h : t.Sound) (k : K) (v : V) : (t.put k v).Sound := by
  cases hf : t.find? k with
  | none =>
    have hc : (t.put k v).count = t.count + 1 := by simp [Table.put, hf]
    refine ⟨?_, by simp [hc, live_put_new hf, h.count]⟩
    rw [live_put_new hf, List.map_append, List.nodup_append]
    refine ⟨h.nodup, by simp, fun a ha b hb => ?_⟩
    simp only [List.map_cons, List.map_nil, List.mem_singleton] at hb
    obtain ⟨⟨k', v'⟩, hm, rfl⟩ := List.mem_map.mp ha
    rintro rfl
    exact find?_eq_none.mp hf v' (hb ▸ hm)
  | some w =>
    have hkeys : (t.put k v).live.map Prod.fst = t.live.map Prod.fst := by
      rw [live_put_old hf, List.map_map]
      refine List.map_congr_left fun p _ => ?_
      by_cases hp : p.1 = k <;> simp [hp]
    refine ⟨hkeys ▸ h.nodup, ?_⟩
    have hc : (t.put k v).count = t.count := by simp [Table.put, hf]
    have hl : (t.put k v).live.length = t.live.length := by simpa using congrArg List.length hkeys
    rw [hc, hl, h.count]

@[simp] theorem find?_sweep (t : Table K V) (n : Nat) (k : K) : (t.sweep n).find? k = t.find? k := by
  unfold find?
  rw [live_sweep]

theorem live_unset (t : Table K V) (k : K) : (t.unset k).live = t.live.filter (·.1 ≠ k) := by
  cases hf : t.find? k with
  | none =>
    have ht : t.unset k = t := by simp [unset, hf]
    rw [ht]
    refine (List.filter_eq_self.mpr fun p hp => ?_).symm
    have hne : p.1 ≠ k := fun he => find?_eq_none.mp hf p.2 (he ▸ hp)
    simpa using hne
  | some w =>
    have ht : (t.unset k).slots = t.slots.map fun s => if s.1 = k then (s.1, none) else s := by simp [unset, hf]
    unfold live
    rw [ht]
    induction t.slots with
    | nil => rfl
    | cons s l ih =>
      rw [List.map_cons, List.filterMap_cons, List.filterMap_cons, ih]
      obtain ⟨k', _ | v'⟩ := s
      · by_cases hk : k' = k <;> simp [entry, hk]
      · by_cases hk : k' = k <;> simp [entry, hk]

theorem find?_unset_self (t : Table K V) (k : K) : (t.unset k).find? k = none := by
  refine find?_eq_none.mpr fun v hv => ?_
  rw [live_unset] at hv
  simp at hv

theorem find?_unset_other (t : Table K V) {k k' : K} (hne : k' ≠ k) : (t.unset k).find? k' = t.find? k' := by
  unfold find?
  rw [live_unset, List.find?_filter]
  congr 2
  funext p
  by_cases hp : p.1 = k'
  · simp [hp, hne]
  · simp [hp]

theorem find?_unset (t : Table K V) (k k' : K) :
    (t.unset k).find? k' = if k' = k then none else t.find? k' := by
  split
  · rename_i h
    rw [h, find?_unset_self]
  · rename_i h
    exact find?_unset_other t h

theorem Sound.unset {t : Table K V} (h : t.Sound) (k : K) : (t.unset k).Sound := by
  have hkeys : ((t.unset k).live.map Prod.fst).Nodup := by
    rw [live_unset]
    exact (List.filter_sublist.map Prod.fst).nodup h.nodup
  refine ⟨hkeys, ?_⟩
  cases hf : t.find? k with
  | none =>
    have ht : t.unset k = t := by simp [Table.unset, hf]
    rw [ht, h.count]
  | some w =>
    have hc : (t.unset k).count = t.count - 1 := by simp [Table.unset, hf]
    have hone : (t.live.map Prod.fst).count k = 1 :=
      List.count_eq_one_of_mem h.nodup (List.mem_map_of_mem (mem_of_find? hf))
    have hsplit : t.live.length = (t.live.filter (·.1 = k)).length + (t.live.filter (·.1 ≠ k)).length := by
      rw [List.length_eq_length_filter_add (fun p : K × V => decide (p.1 = k))]
      simp only [ne_eq, decide_not]
    have hk : (t.live.filter (·.1 = k)).length = 1 := by
      rw [← hone, List.count, List.countP_map, List.countP_eq_length_filter]
      rfl
    rw [hc, live_unset, h.count]
    omega

theorem foldl_put_sound (l : List (K × V)) {t : Table K V} (h : t.Sound) :
    (l.foldl (fun t p => t.put p.1 p.2) t).Sound := by
  induction l generalizing t with
  | nil => exact h
  | cons p l ih => exact ih (h.put p.1 p.2)

theorem sound_ofList (l : List (K × V)) : (ofList l).Sound := foldl_put_sound l sound_empty

/-- What a list of writes leaves stays: every key written is live at the end. -/
theorem exists_find?_ofList {l : List (K × V)} {k : K} (h : k ∈ l.map Prod.fst) :
    ∃ v, (ofList l).find? k = some v := by
  have hf : ∀ (l : List (K × V)) (t : Table K V), (k ∈ l.map Prod.fst ∨ ∃ v, t.find? k = some v) →
      ∃ v, (l.foldl (fun t p => t.put p.1 p.2) t).find? k = some v := by
    intro l
    induction l with
    | nil => simp
    | cons p l ih =>
      intro t ht
      refine ih _ ?_
      rw [find?_put]
      split
      · exact .inr ⟨p.2, rfl⟩
      · rename_i hk
        simpa [hk] using ht
  exact hf l empty (.inl h)

/-- What is live was written. -/
theorem mem_of_live_ofList {l : List (K × V)} {k : K} {v : V} (h : (k, v) ∈ (ofList l).live) :
    (k, v) ∈ l := by
  have hf : ∀ (l : List (K × V)) (t : Table K V), (k, v) ∈ (l.foldl (fun t p => t.put p.1 p.2) t).live →
      (k, v) ∈ t.live ∨ (k, v) ∈ l := by
    intro l
    induction l with
    | nil => exact fun t h => .inl h
    | cons p l ih =>
      intro t h
      rcases ih _ h with hm | hm
      · rcases mem_live_put hm with ht | hp
        · exact .inl ht
        · exact .inr (hp ▸ List.mem_cons_self)
      · exact .inr (List.mem_cons_of_mem _ hm)
  simpa using hf l empty h

/-- Writes under distinct keys are the entries, in order. -/
theorem live_ofList {l : List (K × V)} (h : (l.map Prod.fst).Nodup) : (ofList l).live = l := by
  have hf : ∀ (l : List (K × V)) (t : Table K V), ((t.live ++ l).map Prod.fst).Nodup →
      (l.foldl (fun t p => t.put p.1 p.2) t).live = t.live ++ l := by
    intro l
    induction l with
    | nil => simp
    | cons p l ih =>
      intro t ht
      have hp : t.find? p.1 = none := by
        refine find?_eq_none.mpr fun v hv => ?_
        rw [List.map_append, List.nodup_append] at ht
        exact ht.2.2 p.1 (List.mem_map.mpr ⟨_, hv, rfl⟩) p.1 (by simp) rfl
      rw [List.foldl_cons, ih _ (by simpa [live_put_new hp] using ht), live_put_new hp]
      simp
  exact (hf l empty (by simpa using h)).trans (by simp)

end DecEq

end Table
