/-
Ordered maps filled by insertion that overwrites (`std::map::operator[]`,
`zend_symtable_update`): the map a row of writes leaves binds each key to the
value of its last write. A table takes the same writes in the order in which
its keys first come; where they come sorted, the table lists the map
(`ofList_eq_listing`), and says no less and no more (`listing_inj`).
-/
import Mathlib.Data.List.Induction
import PolarisPhp.Lib.FirstWins
import PolarisPhp.Lib.Table

open Std

namespace LastWins

variable {K V : Type} {cmp : K → K → Ordering} [TransCmp cmp]

/-- The map that writing the entries in order leaves. -/
def lastWins (cmp : K → K → Ordering) [TransCmp cmp] (l : List (K × V)) : ExtTreeMap K V cmp :=
  l.foldl (fun m p => m.insert p.1 p.2) ∅

theorem lastWins_concat (l : List (K × V)) (p : K × V) :
    lastWins cmp (l ++ [p]) = (lastWins cmp l).insert p.1 p.2 := by
  simp [lastWins, List.foldl_append]

/-! ## Sorted entries -/

section Lawful

variable [LawfulEqCmp cmp]

theorem mem_lastWins {l : List (K × V)} {k : K} : k ∈ lastWins cmp l ↔ k ∈ l.map Prod.fst := by
  induction l using List.reverseRecOn with
  | nil => simp [lastWins]
  | append_singleton l p ih =>
    rw [lastWins_concat, ExtTreeMap.mem_insert, ih, List.map_append, List.mem_append, LawfulEqCmp.compare_eq_iff_eq]
    simp [or_comm, eq_comm]

/-- Sorted entries with distinct keys are those of the one map they bind. -/
theorem toList_eq {m : ExtTreeMap K V cmp} {l : List (K × V)} (hl : l.Pairwise fun a b => cmp a.1 b.1 = .lt)
    (h : ∀ p, p ∈ l ↔ m[p.1]? = some p.2) : m.toList = l := by
  have hne : ∀ {l : List (K × V)}, l.Pairwise (fun a b => cmp a.1 b.1 = .lt) → l.Nodup := by
    refine fun hl => hl.imp fun {a b} hab he => ?_
    subst he
    exact absurd (hab.symm.trans ReflCmp.compare_self) (by decide)
  refine List.Perm.eq_of_pairwise (fun a b _ _ hab hba => ?_) m.ordered_keys_toList hl ?_
  · have hgt := OrientedCmp.gt_of_lt hba
    rw [hab] at hgt
    cases hgt
  · refine (List.perm_ext_iff_of_nodup (hne m.ordered_keys_toList) (hne hl)).mpr fun p => ?_
    rw [h p]
    exact ExtTreeMap.mem_toList_iff_getElem?_eq_some

theorem getElem?_insert [DecidableEq K] (m : ExtTreeMap K V cmp) (k k' : K) (v : V) :
    (m.insert k v)[k']? = if k = k' then some v else m[k']? := by
  simp only [ExtTreeMap.getElem?_insert, LawfulEqCmp.compare_eq_iff_eq]

/-- A key after all others is listed last. -/
theorem toList_insert_last [DecidableEq K] {m : ExtTreeMap K V cmp} {k : K} (h : ∀ k' ∈ m, cmp k' k = .lt) (v : V) :
    (m.insert k v).toList = m.toList ++ [(k, v)] := by
  have hlt : ∀ p ∈ m.toList, cmp p.1 k = .lt := fun p hp => by
    refine h p.1 (ExtTreeMap.mem_iff_isSome_getElem?.mpr ?_)
    rw [ExtTreeMap.mem_toList_iff_getElem?_eq_some.mp hp]
    rfl
  refine toList_eq (List.pairwise_append.mpr ⟨m.ordered_keys_toList, List.pairwise_singleton _ _, ?_⟩) fun p => ?_
  · intro p hp q hq
    obtain rfl := List.mem_singleton.mp hq
    exact hlt p hp
  · rw [List.mem_append, List.mem_singleton, ExtTreeMap.mem_toList_iff_getElem?_eq_some, getElem?_insert]
    split
    · rename_i hk
      subst hk
      have hnot : m[p.1]? ≠ some p.2 := fun hm => by
        have hself := hlt p (ExtTreeMap.mem_toList_iff_getElem?_eq_some.mpr hm)
        exact absurd (hself.symm.trans ReflCmp.compare_self) (by decide)
      rw [or_iff_right hnot, Option.some.injEq]
      exact ⟨fun he => (congrArg Prod.snd he).symm, fun he => Prod.ext rfl he.symm⟩
    · rename_i hk
      exact or_iff_left fun he => hk (congrArg Prod.fst he).symm

/-- A key that is there stays where it is. -/
theorem toList_insert_old [DecidableEq K] {m : ExtTreeMap K V cmp} {k : K} (h : k ∈ m) (v : V) :
    (m.insert k v).toList = m.toList.map fun p => if p.1 = k then (k, v) else p := by
  have hfst : ∀ p : K × V, (if p.1 = k then (k, v) else p).1 = p.1 := fun p => by
    split
    · exact Eq.symm ‹_›
    · rfl
  refine toList_eq (List.pairwise_map.mpr ?_) fun p => ?_
  · simp only [hfst]
    exact m.ordered_keys_toList
  · rw [List.mem_map, getElem?_insert]
    constructor
    · rintro ⟨q, hq, rfl⟩
      rw [hfst]
      by_cases hk : q.1 = k
      · rw [if_pos hk, if_pos hk.symm]
      · rw [if_neg hk, if_neg (Ne.symm hk)]
        exact ExtTreeMap.mem_toList_iff_getElem?_eq_some.mp hq
    · intro hp
      by_cases hk : p.1 = k
      · obtain ⟨w, hw⟩ := Option.isSome_iff_exists.mp (ExtTreeMap.mem_iff_isSome_getElem?.mp h)
        rw [if_pos hk.symm] at hp
        refine ⟨(k, w), ExtTreeMap.mem_toList_iff_getElem?_eq_some.mpr hw, ?_⟩
        rw [if_pos rfl, ← hk, Option.some.inj hp]
      · rw [if_neg (Ne.symm hk)] at hp
        exact ⟨p, ExtTreeMap.mem_toList_iff_getElem?_eq_some.mpr hp, if_neg hk⟩

end Lawful

/-! ## Tables -/

section Tables

variable {K' V' : Type}

/-- The table that lists a map, its keys and values written by `f` and `g`. -/
def listing (f : K → K') (g : V → V') (m : ExtTreeMap K V cmp) : Table K' V' :=
  ⟨m.toList.map fun p => (f p.1, some (g p.2)), m.size⟩

variable {f : K → K'} {g : V → V'}

theorem live_listing (m : ExtTreeMap K V cmp) : (listing f g m).live = m.toList.map fun p => (f p.1, g p.2) := by
  simp [Table.live, listing, List.filterMap_map, Function.comp_def, Table.entry]

/-- A listing tells its map. -/
theorem listing_inj (hf : Function.Injective f) (hg : Function.Injective g) {m m' : ExtTreeMap K V cmp} :
    listing f g m = listing f g m' ↔ m = m' := by
  refine ⟨fun h => ExtTreeMap.toList_inj.mp ?_, fun h => h ▸ rfl⟩
  have hpair : Function.Injective fun p : K × V => (f p.1, g p.2) := by
    rintro ⟨k, v⟩ ⟨k', v'⟩ he
    obtain ⟨hk, hv⟩ := Prod.mk.inj he
    exact Prod.ext (hf hk) (hg hv)
  have hlive := congrArg Table.live h
  rw [live_listing, live_listing] at hlive
  exact (List.map_injective_iff.mpr hpair) hlive

variable [DecidableEq K'] [LawfulEqCmp cmp]

theorem find?_listing (hf : Function.Injective f) (m : ExtTreeMap K V cmp) (k : K) :
    (listing f g m).find? (f k) = m[k]?.map g := by
  classical
  have hn : ((listing f g m).live.map Prod.fst).Nodup := by
    rw [live_listing, List.map_map, show Prod.fst ∘ (fun p : K × V => (f p.1, g p.2)) = f ∘ Prod.fst from rfl,
      ← List.map_map]
    exact (FirstWins.nodup_toList m).map hf
  have hs : (listing f g m).Sound := ⟨hn, by rw [live_listing]; simp [listing]⟩
  ext v
  rw [hs.find?_eq_some, live_listing, List.mem_map, Option.map_eq_some_iff]
  constructor
  · rintro ⟨p, hp, he⟩
    obtain ⟨hk, rfl⟩ := Prod.mk.inj he
    exact ⟨p.2, ExtTreeMap.mem_toList_iff_getElem?_eq_some.mp (hf hk ▸ hp), rfl⟩
  · rintro ⟨w, hw, rfl⟩
    exact ⟨(k, w), ExtTreeMap.mem_toList_iff_getElem?_eq_some.mpr hw, rfl⟩

/-- A write to the table is a write to the map it lists, where the key is
there or comes after all others. -/
theorem put_listing (hf : Function.Injective f) {m : ExtTreeMap K V cmp} {k : K} (h : ∀ k' ∈ m, cmp k' k ≠ .gt) (v : V) :
    (listing f g m).put (f k) (g v) = listing f g (m.insert k v) := by
  classical
  unfold Table.put
  rw [find?_listing hf, Option.isSome_map]
  by_cases hk : k ∈ m
  · rw [if_pos (ExtTreeMap.mem_iff_isSome_getElem?.mp hk)]
    simp only [listing, toList_insert_old hk, ExtTreeMap.size_insert, ExtTreeMap.contains_iff_mem.mpr hk, if_true,
      List.map_map, Table.mk.injEq, and_true]
    refine List.map_congr_left fun p _ => ?_
    by_cases hp : p.1 = k
    · simp [hp]
    · have hfp : f p.1 ≠ f k := fun he => hp (hf he)
      simp [hp, hfp]
  · have hlt : ∀ k' ∈ m, cmp k' k = .lt := by
      intro k' hk'
      cases hc : cmp k' k with
      | lt => rfl
      | gt => exact absurd hc (h k' hk')
      | eq => exact absurd (LawfulEqCmp.eq_of_compare hc ▸ hk') hk
    have hno : m.contains k = false := Bool.eq_false_iff.mpr fun hc => hk (ExtTreeMap.contains_iff_mem.mp hc)
    rw [if_neg (fun hs => hk (ExtTreeMap.mem_iff_isSome_getElem?.mpr hs))]
    simp [listing, toList_insert_last hlt, ExtTreeMap.size_insert, hno]

/-- **Sorted writes leave the listing of the map they leave.** -/
theorem ofList_eq_listing (hf : Function.Injective f) {l : List (K × V)}
    (hl : l.Pairwise fun a b => cmp a.1 b.1 ≠ .gt) :
    Table.ofList (l.map fun p => (f p.1, g p.2)) = listing f g (lastWins cmp l) := by
  induction l using List.reverseRecOn with
  | nil => simp [Table.ofList, Table.empty, listing, lastWins]
  | append_singleton l p ih =>
    obtain ⟨hl, -, hp⟩ := List.pairwise_append.mp hl
    rw [lastWins_concat, ← put_listing hf, ← ih hl]
    · simp [Table.ofList, List.foldl_append]
    · intro k hk
      obtain ⟨q, hq, rfl⟩ := List.mem_map.mp (mem_lastWins.mp hk)
      exact hp q hq p (List.mem_singleton_self p)

end Tables

end LastWins
