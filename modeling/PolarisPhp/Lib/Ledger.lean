/-
The books of a program that owns resources: what was made for it, what it
holds, and what it gave back. Nothing is ever in the books that was not
made (`Sound`); the books balance when everything made is held or was given
back, once (`Balanced`). A program's steps post entries, and `balanced_post`
says which of them keep the books balanced: those that hold what was made,
and drop nothing.

Several owners may draw on one supply (`Books`). As long as each takes only
what is newly made, none holds what another holds or what was given back
(`Exclusive.post`, `Exclusive.settle`).
-/
import Mathlib.Algebra.Order.Group.Multiset
import Mathlib.Data.Multiset.UnionInter
import Mathlib.Logic.Function.Basic

structure Ledger (α : Type) where
  made : Multiset α
  held : Multiset α
  freed : Multiset α

namespace Ledger

variable {α : Type}

/-- What is in the books was made. -/
def Sound (l : Ledger α) : Prop := l.freed + l.held ≤ l.made

/-- What was made is in the books. -/
def Balanced (l : Ledger α) : Prop := l.freed + l.held = l.made

/-- What one step of a program does to its resources. -/
inductive Entry (α : Type) where
  | pass
  /-- `a` is made, and held -/
  | take (a : α)
  /-- `a` is made, and not held -/
  | leak (a : α)
  /-- `a` is made, and held in place of what was -/
  | restart (a : α)

def post (l : Ledger α) : Entry α → Ledger α
  | .pass => l
  | .take a => { l with made := a ::ₘ l.made, held := a ::ₘ l.held }
  | .leak a => { l with made := a ::ₘ l.made }
  | .restart a => { l with made := a ::ₘ l.made, held := {a} }

/-- Everything held is given back. -/
def settle (l : Ledger α) : Ledger α := { l with held := 0, freed := l.freed + l.held }

/-- The entries that lose nothing. -/
def Entry.Clean (l : Ledger α) : Entry α → Prop
  | .pass | .take _ => True
  | .leak _ => False
  | .restart _ => l.held = 0

theorem sound_empty : (⟨0, 0, 0⟩ : Ledger α).Sound := le_rfl

theorem balanced_empty : (⟨0, 0, 0⟩ : Ledger α).Balanced := rfl

theorem Sound.post {l : Ledger α} (h : l.Sound) (e : Entry α) : (l.post e).Sound := by
  cases e with
  | pass => exact h
  | take a => simpa [Ledger.post, Sound] using h
  | leak a => exact h.trans (Multiset.le_cons_self l.made a)
  | restart a =>
    have hf : l.freed ≤ l.made := (Multiset.le_add_right _ _).trans h
    rw [Sound, Ledger.post, Multiset.add_comm, Multiset.singleton_add]
    exact Multiset.cons_le_cons a hf

/-- An entry keeps the books balanced exactly when it is clean, and none
balances books that were not. -/
theorem balanced_post {l : Ledger α} (h : l.Sound) (e : Entry α) :
    (l.post e).Balanced ↔ l.Balanced ∧ e.Clean l := by
  cases e with
  | pass => simp [post, Entry.Clean]
  | take a => simp [post, Balanced, Entry.Clean]
  | leak a =>
    refine iff_of_false (fun hb => ?_) fun hc => hc.2
    have hle : a ::ₘ l.made ≤ l.made := hb.symm.le.trans h
    exact absurd (Multiset.card_le_card hle) (by simp)
  | restart a =>
    simp only [post, Balanced, Entry.Clean, Multiset.add_comm _ {a}, Multiset.singleton_add, Multiset.cons_inj_right]
    refine ⟨fun hf => ?_, fun hx => ?_⟩
    · have hheld : l.held = 0 := by
        refine Multiset.card_eq_zero.mp ?_
        have hle := Multiset.card_le_card h
        rw [hf, Multiset.card_add] at hle
        omega
      exact ⟨by simp [hf, hheld], hheld⟩
    · obtain ⟨hb, hheld⟩ := hx
      simpa [hheld] using hb

theorem Sound.settle {l : Ledger α} (h : l.Sound) : l.settle.Sound := by simpa [Sound, Ledger.settle] using h

theorem balanced_settle {l : Ledger α} : l.settle.Balanced ↔ l.Balanced := by simp [settle, Balanced]

/-- Books that balance, of things made once each, hold nothing twice. -/
theorem Balanced.count_freed [DecidableEq α] {l : Ledger α} (h : l.Balanced) (hn : l.made.Nodup) (hh : l.held = 0)
    {a : α} (ha : a ∈ l.made) : l.freed.count a = 1 := by
  have hf : l.freed = l.made := by simpa [Balanced, hh] using h
  rw [hf]
  exact Multiset.count_eq_one_of_mem hn ha

theorem Balanced.mem_held {l : Ledger α} (h : l.Balanced) {a : α} (ha : a ∈ l.made) (hf : a ∉ l.freed) :
    a ∈ l.held := by
  rw [← h, Multiset.mem_add] at ha
  exact ha.resolve_left hf

/-- Conversely: with nothing held, books in which everything made was given
back balance. -/
theorem Sound.balanced_of_count_freed [DecidableEq α] {l : Ledger α} (h : l.Sound) (hn : l.made.Nodup)
    (hc : ∀ a ∈ l.made, l.freed.count a = 1) : l.Balanced := by
  refine le_antisymm h ?_
  refine Multiset.le_iff_count.mpr fun a => ?_
  by_cases ha : a ∈ l.made
  · rw [Multiset.count_add, hc a ha, Multiset.count_eq_one_of_mem hn ha]
    omega
  · simp [Multiset.count_eq_zero_of_notMem ha]

theorem freed_post (l : Ledger α) (e : Entry α) : (l.post e).freed = l.freed := by cases e <;> rfl

/-- What the entry makes was not made before. -/
def Entry.Fresh (made : Multiset α) : Entry α → Prop
  | .pass => True
  | .take a | .leak a | .restart a => a ∉ made

end Ledger

/-! ## Several owners -/

/-- The books of owners who draw on one supply. -/
structure Books (H α : Type) where
  made : Multiset α
  held : H → Multiset α
  freed : Multiset α

namespace Books

open Ledger

variable {H α : Type}

/-- The books as the owner `h` sees them. -/
def ledger (b : Books H α) (h : H) : Ledger α := ⟨b.made, b.held h, b.freed⟩

/-- Everything is held by one owner at most, once, and not when it was given back. -/
structure Exclusive (b : Books H α) : Prop where
  once : b.made.Nodup
  sound : ∀ h, (b.ledger h).Sound
  apart : ∀ h k, h ≠ k → Disjoint (b.held h) (b.held k)

/-- Everything made is held or was given back. -/
def Complete (b : Books H α) : Prop := ∀ a ∈ b.made, a ∈ b.freed ∨ ∃ h, a ∈ b.held h

variable {b : Books H α} {h k : H} {e : Entry α} {a : α}

theorem Exclusive.nodup (hb : b.Exclusive) (h : H) : (b.freed + b.held h).Nodup := Multiset.nodup_of_le (hb.sound h) hb.once

theorem Exclusive.mem_made (hb : b.Exclusive) (ha : a ∈ b.held h) : a ∈ b.made :=
  Multiset.mem_of_le (hb.sound h) (Multiset.mem_add.mpr (.inr ha))

theorem Exclusive.freed_mem_made (hb : b.Exclusive) (h : H) (ha : a ∈ b.freed) : a ∈ b.made :=
  Multiset.mem_of_le (hb.sound h) (Multiset.mem_add.mpr (.inl ha))

/-- What is held was not given back. -/
theorem Exclusive.not_freed (hb : b.Exclusive) (ha : a ∈ b.held h) : a ∉ b.freed := fun hf =>
  Multiset.disjoint_left.mp (Multiset.nodup_add.mp (hb.nodup h)).2.2 hf ha

theorem Exclusive.eq_owner (hb : b.Exclusive) (ha : a ∈ b.held h) (ha' : a ∈ b.held k) : h = k := by
  by_contra hne
  exact Multiset.disjoint_left.mp (hb.apart h k hne) ha ha'

/-- What an owner holds after an entry it held before, or it is new. -/
theorem mem_held_post (he : e.Fresh b.made) (ha : a ∈ ((b.ledger h).post e).held) : a ∈ b.held h ∨ a ∉ b.made := by
  cases e with
  | pass | leak a' => exact .inl ha
  | take a' =>
    rcases Multiset.mem_cons.mp ha with rfl | ha
    · exact .inr he
    · exact .inl ha
  | restart a' =>
    obtain rfl := Multiset.mem_singleton.mp ha
    exact .inr he

variable [DecidableEq H]

/-- An entry in the books of `h`. -/
def post (b : Books H α) (h : H) (e : Entry α) : Books H α where
  made := ((b.ledger h).post e).made
  held := Function.update b.held h ((b.ledger h).post e).held
  freed := b.freed

/-- Everything `h` holds is given back. -/
def settle (b : Books H α) (h : H) : Books H α where
  made := b.made
  held := Function.update b.held h 0
  freed := b.freed + b.held h

theorem held_post_self : (b.post h e).held h = ((b.ledger h).post e).held := Function.update_self _ _ _

theorem held_post_other (hk : k ≠ h) : (b.post h e).held k = b.held k := Function.update_of_ne hk _ _

theorem held_settle_self : (b.settle h).held h = 0 := Function.update_self _ _ _

theorem held_settle_other (hk : k ≠ h) : (b.settle h).held k = b.held k := Function.update_of_ne hk _ _

theorem made_le_post (b : Books H α) (h : H) (e : Entry α) : b.made ≤ (b.post h e).made := by
  cases e with
  | pass => exact le_rfl
  | take a | leak a | restart a => exact Multiset.le_cons_self b.made a

theorem Exclusive.post (hb : b.Exclusive) (he : e.Fresh b.made) : (b.post h e).Exclusive where
  once := by
    cases e with
    | pass => exact hb.once
    | take a | leak a | restart a => exact Multiset.nodup_cons.mpr ⟨he, hb.once⟩
  sound := fun k => by
    by_cases hk : k = h
    · subst hk
      have hs := (hb.sound k).post e
      rw [Ledger.Sound, freed_post] at hs
      rw [Ledger.Sound, ledger, held_post_self]
      exact hs
    · rw [Ledger.Sound, ledger, held_post_other hk]
      exact (hb.sound k).trans (made_le_post b h e)
  apart := fun i j hij => by
    have hnew : ∀ k, k ≠ h → Disjoint ((b.post h e).held h) ((b.post h e).held k) := by
      intro k hk
      rw [held_post_self, held_post_other hk]
      refine Multiset.disjoint_left.mpr fun ha ha' => ?_
      rcases mem_held_post he ha with ha | ha
      · exact hk (hb.eq_owner ha' ha)
      · exact ha (hb.mem_made ha')
    by_cases hi : i = h
    · subst hi
      exact hnew j (Ne.symm hij)
    · by_cases hj : j = h
      · subst hj
        exact (hnew i hi).symm
      · rw [held_post_other hi, held_post_other hj]
        exact hb.apart i j hij

theorem Exclusive.settle (hb : b.Exclusive) : (b.settle h).Exclusive where
  once := hb.once
  sound := fun k => by
    rw [Ledger.Sound, ledger]
    by_cases hk : k = h
    · subst hk
      rw [held_settle_self, Multiset.add_zero]
      exact hb.sound k
    · rw [held_settle_other hk]
      have hn : (b.freed + b.held h + b.held k).Nodup := by
        refine Multiset.nodup_add.mpr ⟨hb.nodup h, (Multiset.nodup_add.mp (hb.nodup k)).2.1, ?_⟩
        refine Multiset.disjoint_left.mpr fun ha ha' => ?_
        rcases Multiset.mem_add.mp ha with ha | ha
        · exact hb.not_freed ha' ha
        · exact hk (hb.eq_owner ha' ha)
      refine (Multiset.le_iff_subset hn).mpr fun a ha => ?_
      rcases Multiset.mem_add.mp ha with ha | ha
      · exact Multiset.mem_of_le (hb.sound h) ha
      · exact hb.mem_made ha
  apart := fun i j hij => by
    have hnone : ∀ k, Disjoint ((b.settle h).held h) ((b.settle h).held k) := by
      intro k
      rw [held_settle_self]
      exact Multiset.zero_disjoint _
    by_cases hi : i = h
    · exact hi ▸ hnone j
    · by_cases hj : j = h
      · exact hj ▸ (hnone i).symm
      · rw [held_settle_other hi, held_settle_other hj]
        exact hb.apart i j hij

/-- An entry keeps everything accounted for exactly when it is clean. -/
theorem complete_post (hb : b.Exclusive) (he : e.Fresh b.made) :
    (b.post h e).Complete ↔ b.Complete ∧ e.Clean (b.ledger h) := by
  have hother : ∀ {a k}, k ≠ h → (a ∈ (b.post h e).held k ↔ a ∈ b.held k) := fun hk => by rw [held_post_other hk]
  have hself : ∀ {a}, a ∈ (b.post h e).held h ↔ a ∈ ((b.ledger h).post e).held := by rw [held_post_self]
  cases e with
  | pass =>
    have hb' : b.post h .pass = b := congrArg (Books.mk b.made · b.freed) (Function.update_eq_self h b.held)
    rw [hb']
    exact (and_iff_left trivial).symm
  | take a =>
    have hmem : ∀ x ∈ b.made, ((∃ k, x ∈ (b.post h (.take a)).held k) ↔ ∃ k, x ∈ b.held k) := by
      refine fun x hx => exists_congr fun k => ?_
      by_cases hk : k = h
      · subst hk
        refine hself.trans (Multiset.mem_cons.trans (or_iff_right fun hxa => he (hxa ▸ hx)))
      · exact hother hk
    refine ⟨fun hc => ⟨fun x hx => ?_, trivial⟩, fun hc x hx => ?_⟩
    · rw [← hmem x hx]
      exact hc x (Multiset.mem_cons_of_mem hx)
    · rcases Multiset.mem_cons.mp hx with rfl | hx
      · exact .inr ⟨h, hself.mpr (Multiset.mem_cons_self x _)⟩
      · rw [hmem x hx]
        exact hc.1 x hx
  | leak a =>
    refine iff_of_false (fun hc => ?_) fun hc => hc.2
    rcases hc a (Multiset.mem_cons_self a _) with ha | ⟨k, ha⟩
    · exact he (hb.freed_mem_made h ha)
    · refine he (hb.mem_made (h := k) ?_)
      by_cases hk : k = h
      · subst hk
        exact hself.mp ha
      · exact (hother hk).mp ha
  | restart a =>
    have hnew : ∀ {x k}, x ∈ b.made → x ∈ (b.post h (.restart a)).held k → k ≠ h ∧ x ∈ b.held k := by
      intro x k hx hxk
      by_cases hk : k = h
      · subst hk
        obtain rfl := Multiset.mem_singleton.mp (hself.mp hxk)
        exact absurd hx he
      · exact ⟨hk, (hother hk).mp hxk⟩
    refine ⟨fun hc => ⟨fun x hx => ?_, Multiset.eq_zero_of_forall_notMem fun x hx => ?_⟩, fun hc x hx => ?_⟩
    · exact (hc x (Multiset.mem_cons_of_mem hx)).imp_right fun ⟨k, hk⟩ => ⟨k, (hnew hx hk).2⟩
    · have hxm : x ∈ b.made := hb.mem_made hx
      rcases hc x (Multiset.mem_cons_of_mem hxm) with hf | ⟨k, hk⟩
      · exact hb.not_freed hx hf
      · obtain ⟨hne, hk⟩ := hnew hxm hk
        exact hne (hb.eq_owner hk hx)
    · obtain ⟨hc, hnone⟩ := hc
      rcases Multiset.mem_cons.mp hx with rfl | hx
      · exact .inr ⟨h, hself.mpr (Multiset.mem_singleton_self x)⟩
      · refine (hc x hx).imp_right fun ⟨k, hk⟩ => ⟨k, (hother fun hkh => ?_).mpr hk⟩
        rw [hkh, show b.held h = 0 from hnone] at hk
        exact Multiset.notMem_zero x hk

theorem complete_settle : (b.settle h).Complete ↔ b.Complete := by
  refine forall₂_congr fun a _ => ?_
  have hfreed : a ∈ (b.settle h).freed ↔ a ∈ b.freed ∨ a ∈ b.held h := Multiset.mem_add
  constructor
  · rintro (ha | ⟨k, ha⟩)
    · exact (hfreed.mp ha).imp_right fun ha => ⟨h, ha⟩
    · by_cases hk : k = h
      · subst hk
        rw [held_settle_self] at ha
        exact absurd ha (Multiset.notMem_zero a)
      · rw [held_settle_other hk] at ha
        exact .inr ⟨k, ha⟩
  · rintro (ha | ⟨k, ha⟩)
    · exact .inl (hfreed.mpr (.inl ha))
    · by_cases hk : k = h
      · exact .inl (hfreed.mpr (.inr (hk ▸ ha)))
      · exact .inr ⟨k, by rwa [held_settle_other hk]⟩

end Books
