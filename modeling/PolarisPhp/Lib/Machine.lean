/-
Machines that take their inputs one at a time. A turn emits events and then
either answers and leaves a next state, or stops for good. A simulation
carries the events, the answers and the reason of a stop over from one
machine to another (`Simulates.run`).

A family of machines takes inputs addressed to its members in any order.
What one member does in a run of the family is what it does alone on its own
inputs (`run_family`), whatever came between them.
-/
import Mathlib.Data.List.Basic
import Mathlib.Logic.Function.Basic

section Machines

/-- What a machine makes of an input. -/
structure Turn (S O E X : Type) where
  events : List E
  /-- why it stopped, or the next state and the answer -/
  result : Except X (S × O)

/-- What it makes of a row of inputs. -/
structure Run (S O E X : Type) where
  events : List E
  answers : List O
  /-- why it stopped, or the last state -/
  result : Except X S

structure Machine (S I O E X : Type) where
  step : S → I → Turn S O E X

variable {S T I O E X Y : Type}

/-- A turn, and a run from the state it leaves. -/
def Turn.andThen (t : Turn S O E X) (next : S → Run S O E X) : Run S O E X :=
  match t.result with
  | .error x => ⟨t.events, [], .error x⟩
  | .ok (s, o) => ⟨t.events ++ (next s).events, o :: (next s).answers, (next s).result⟩

namespace Machine

def run (m : Machine S I O E X) (s : S) : List I → Run S O E X
  | [] => ⟨[], [], .ok s⟩
  | i :: is => (m.step s i).andThen fun s' => m.run s' is

/-- `m` comes from `s` to `s'` by the inputs `is`. -/
def Reaches (m : Machine S I O E X) (s : S) (is : List I) (s' : S) : Prop := (m.run s is).result = .ok s'

variable {m : Machine S I O E X} {n : Machine T I O E X} {s s' : S} {i : I} {is js : List I} {o : O} {x : X}

theorem run_cons_ok (h : (m.step s i).result = .ok (s', o)) :
    m.run s (i :: is) =
      ⟨(m.step s i).events ++ (m.run s' is).events, o :: (m.run s' is).answers, (m.run s' is).result⟩ := by
  simp only [run, Turn.andThen, h]

theorem run_cons_error (h : (m.step s i).result = .error x) :
    m.run s (i :: is) = ⟨(m.step s i).events, [], .error x⟩ := by
  simp only [run, Turn.andThen, h]

@[simp] theorem reaches_nil : m.Reaches s [] s' ↔ s = s' := by simp [Reaches, run]

theorem reaches_cons : m.Reaches s (i :: is) s' ↔ ∃ s₁ o, (m.step s i).result = .ok (s₁, o) ∧ m.Reaches s₁ is s' := by
  unfold Reaches
  cases h : (m.step s i).result with
  | error x => simp [run_cons_error h]
  | ok p =>
    obtain ⟨s₁, o⟩ := p
    simp [run_cons_ok h]

theorem run_append (h : m.Reaches s is s') :
    m.run s (is ++ js) =
      ⟨(m.run s is).events ++ (m.run s' js).events, (m.run s is).answers ++ (m.run s' js).answers,
        (m.run s' js).result⟩ := by
  induction is generalizing s with
  | nil =>
    obtain rfl := reaches_nil.mp h
    rfl
  | cons i is ih =>
    obtain ⟨s₁, o, hs, hr⟩ := reaches_cons.mp h
    rw [List.cons_append, run_cons_ok hs, run_cons_ok hs, ih hr, List.append_assoc, List.cons_append]

theorem reaches_append : m.Reaches s (is ++ js) s' ↔ ∃ s₁, m.Reaches s is s₁ ∧ m.Reaches s₁ js s' := by
  induction is generalizing s with
  | nil => simp
  | cons i is ih =>
    simp only [List.cons_append, reaches_cons, ih]
    exact ⟨fun ⟨s₁, o, hs, s₂, h₁, h₂⟩ => ⟨s₂, ⟨s₁, o, hs, h₁⟩, h₂⟩, fun ⟨s₂, ⟨s₁, o, hs, h₁⟩, h₂⟩ => ⟨s₁, o, hs, s₂, h₁, h₂⟩⟩

theorem reaches_concat :
    m.Reaches s (is ++ [i]) s' ↔ ∃ s₁ o, m.Reaches s is s₁ ∧ (m.step s₁ i).result = .ok (s', o) := by
  simp only [reaches_append, reaches_cons, reaches_nil]
  exact ⟨fun ⟨s₁, hr, s₂, o, hs, he⟩ => ⟨s₁, o, hr, he ▸ hs⟩, fun ⟨s₁, o, hr, hs⟩ => ⟨s₁, hr, s', o, hs, rfl⟩⟩

/-- A run stops where a turn does. -/
theorem run_error_iff : (m.run s is).result = .error x ↔
    ∃ js i rest s', is = js ++ i :: rest ∧ m.Reaches s js s' ∧ (m.step s' i).result = .error x := by
  induction is generalizing s with
  | nil => simp [run]
  | cons i is ih =>
    cases hs : (m.step s i).result with
    | error y =>
      rw [run_cons_error hs]
      constructor
      · intro he
        cases he
        exact ⟨[], i, is, s, rfl, reaches_nil.mpr rfl, hs⟩
      · rintro ⟨js, j, rest, s', he, hr, hx⟩
        cases js with
        | nil =>
          cases he
          obtain rfl := reaches_nil.mp hr
          obtain rfl := Except.error.inj (hs.symm.trans hx)
          rfl
        | cons a js =>
          cases he
          obtain ⟨s₁, o, hs₁, -⟩ := reaches_cons.mp hr
          rw [hs] at hs₁
          cases hs₁
    | ok p =>
      obtain ⟨s₁, o⟩ := p
      rw [run_cons_ok hs]
      refine ih.trans ⟨fun ⟨js, j, rest, s', he, hr, hx⟩ => ?_, fun ⟨js, j, rest, s', he, hr, hx⟩ => ?_⟩
      · exact ⟨i :: js, j, rest, s', by rw [he, List.cons_append], reaches_cons.mpr ⟨s₁, o, hs, hr⟩, hx⟩
      · cases js with
        | nil =>
          cases he
          obtain rfl := reaches_nil.mp hr
          rw [hs] at hx
          cases hx
        | cons a js =>
          cases he
          obtain ⟨s₂, o₂, hs₂, hr⟩ := reaches_cons.mp hr
          rw [hs] at hs₂
          cases hs₂
          exact ⟨js, j, rest, s', rfl, hr, hx⟩

/-- What every turn emits only, every run emits only. -/
theorem forall_events {P : E → Prop} (h : ∀ s, ∀ i ∈ is, ∀ e ∈ (m.step s i).events, P e) (s : S) :
    ∀ e ∈ (m.run s is).events, P e := by
  induction is generalizing s with
  | nil => exact fun e he => absurd he List.not_mem_nil
  | cons i is ih =>
    have hhead := h s i List.mem_cons_self
    have htail := fun s' => ih (fun s j hj => h s j (List.mem_cons_of_mem i hj)) s'
    cases hs : (m.step s i).result with
    | error x =>
      rw [run_cons_error hs]
      exact hhead
    | ok p =>
      rw [run_cons_ok hs]
      intro e he
      rcases List.mem_append.mp he with he | he
      · exact hhead e he
      · exact htail p.1 e he

/-- Inputs that make the same turns make the same runs. -/
theorem run_congr {same : I → I → Prop} (h : ∀ s i j, same i j → m.step s i = m.step s j) (s : S)
    (hl : List.Forall₂ same is js) : m.run s is = m.run s js := by
  induction hl generalizing s with
  | nil => rfl
  | cons hi hl ih =>
    simp only [run, h s _ _ hi]
    exact congrArg _ (funext ih)

/-- What every turn that goes on keeps, every run that goes on keeps. -/
theorem Reaches.invariant {P : S → Prop} (hstep : ∀ s i s' o, P s → (m.step s i).result = .ok (s', o) → P s')
    (h : m.Reaches s is s') (hs : P s) : P s' := by
  induction is generalizing s with
  | nil => exact reaches_nil.mp h ▸ hs
  | cons i is ih =>
    obtain ⟨s₁, o, ht, hr⟩ := reaches_cons.mp h
    exact ih hr (hstep s i s₁ o hs ht)

end Machine

/-! ## Reasons to stop -/

/-- A turn, its reason to stop seen through `f`. -/
def Turn.mapStop (f : X → Y) (t : Turn S O E X) : Turn S O E Y := ⟨t.events, t.result.mapError f⟩

def Run.mapStop (f : X → Y) (r : Run S O E X) : Run S O E Y := ⟨r.events, r.answers, r.result.mapError f⟩

def Machine.mapStop (f : X → Y) (m : Machine S I O E X) : Machine S I O E Y where
  step s i := (m.step s i).mapStop f

theorem Machine.run_mapStop (f : X → Y) (m : Machine S I O E X) (s : S) (is : List I) :
    (m.mapStop f).run s is = (m.run s is).mapStop f := by
  induction is generalizing s with
  | nil => rfl
  | cons i is ih =>
    cases hs : (m.step s i).result with
    | error x =>
      have hf : ((m.mapStop f).step s i).result = .error (f x) := by simp only [mapStop, Turn.mapStop, hs, Except.mapError]
      rw [run_cons_error hs, run_cons_error hf]
      rfl
    | ok p =>
      have hf : ((m.mapStop f).step s i).result = .ok p := by simp only [mapStop, Turn.mapStop, hs, Except.mapError]
      rw [run_cons_ok hs, run_cons_ok hf, ih]
      rfl

/-- Runs that emit and answer the same, and stop both or neither. -/
structure Run.Alike (r : Run S O E X) (r' : Run T O E X) : Prop where
  events : r.events = r'.events
  answers : r.answers = r'.answers
  stops : (∃ x, r.result = .error x) ↔ ∃ x, r'.result = .error x

theorem Run.Alike.of_mapStop {r r' : Run S O E X} (h : r.mapStop (fun _ => ()) = r'.mapStop fun _ => ()) :
    r.Alike r' := by
  obtain ⟨es, os, res⟩ := r
  obtain ⟨es', os', res'⟩ := r'
  simp only [Run.mapStop, Run.mk.injEq] at h
  obtain ⟨rfl, rfl, hres⟩ := h
  refine ⟨rfl, rfl, ?_⟩
  cases res <;> cases res' <;> simp_all [Except.mapError]

/-! ## Simulation -/

/-- Turns that emit, answer and stop alike, and otherwise leave states that `r` relates. -/
inductive Turn.Rel (r : S → T → Prop) : Turn S O E X → Turn T O E X → Prop
  | ok {es s t o} : r s t → Turn.Rel r ⟨es, .ok (s, o)⟩ ⟨es, .ok (t, o)⟩
  | error {es x} : Turn.Rel r ⟨es, .error x⟩ ⟨es, .error x⟩

inductive Run.Rel (r : S → T → Prop) : Run S O E X → Run T O E X → Prop
  | ok {es os s t} : r s t → Run.Rel r ⟨es, os, .ok s⟩ ⟨es, os, .ok t⟩
  | error {es os x} : Run.Rel r ⟨es, os, .error x⟩ ⟨es, os, .error x⟩

theorem Turn.Rel.events {r : S → T → Prop} {a : Turn S O E X} {b : Turn T O E X} (h : a.Rel r b) :
    a.events = b.events := by
  cases h <;> rfl

theorem Run.Rel.prepend {r : S → T → Prop} {a : Run S O E X} {b : Run T O E X} {es : List E} {o : O} (h : a.Rel r b) :
    Run.Rel r ⟨es ++ a.events, o :: a.answers, a.result⟩ ⟨es ++ b.events, o :: b.answers, b.result⟩ := by
  cases h with
  | ok hr => exact .ok hr
  | error => exact .error

/-- From states that `r` relates the machines take turns that it relates. -/
def Simulates (r : S → T → Prop) (m : Machine S I O E X) (n : Machine T I O E X) : Prop :=
  ∀ s t i, r s t → (m.step s i).Rel r (n.step t i)

theorem Simulates.run {r : S → T → Prop} {m : Machine S I O E X} {n : Machine T I O E X} (h : Simulates r m n) {s : S}
    {t : T} (hr : r s t) (is : List I) : (m.run s is).Rel r (n.run t is) := by
  induction is generalizing s t with
  | nil => exact .ok hr
  | cons i is ih =>
    have ht := h s t i hr
    simp only [Machine.run]
    generalize m.step s i = a at ht
    generalize n.step t i = b at ht
    cases ht with
    | error => exact .error
    | ok hr' => exact (ih hr').prepend

theorem Run.Rel.events {r : S → T → Prop} {a : Run S O E X} {b : Run T O E X} (h : a.Rel r b) : a.events = b.events := by
  cases h <;> rfl

theorem Run.Rel.answers {r : S → T → Prop} {a : Run S O E X} {b : Run T O E X} (h : a.Rel r b) :
    a.answers = b.answers := by
  cases h <;> rfl

theorem Run.Rel.reaches {r : S → T → Prop} {a : Run S O E X} {b : Run T O E X} (h : a.Rel r b) {s : S}
    (hs : a.result = .ok s) : ∃ t, b.result = .ok t ∧ r s t := by
  cases h with
  | ok hr =>
    cases hs
    exact ⟨_, rfl, hr⟩
  | error => cases hs

theorem Run.Rel.error_iff {r : S → T → Prop} {a : Run S O E X} {b : Run T O E X} (h : a.Rel r b) {x : X} :
    a.result = .error x ↔ b.result = .error x := by
  cases h with
  | ok hr => exact iff_of_false nofun nofun
  | error => simp only [Except.error.injEq]

/-! ## Lives -/

/-- What is created once and released once: before, in between, and after. -/
inductive Life (S : Type) where
  | unborn
  | live (s : S)
  | released

inductive LifeInput (I : Type) where
  | create
  | call (i : I)
  | release

def Life.map (f : S → T) : Life S → Life T
  | .unborn => .unborn
  | .live s => .live (f s)
  | .released => .released

/-- The machine `m` for the time it lives, from `s₀` on. Nobody can reach it
before and after: what is addressed to it then is lost. -/
def Machine.living (m : Machine S I O E X) (s₀ : S) : Machine (Life S) (LifeInput I) (Option O) E X where
  step
    | .unborn, .create => ⟨[], .ok (.live s₀, none)⟩
    | .live s, .call i => ⟨(m.step s i).events, (m.step s i).result.map fun p => (.live p.1, some p.2)⟩
    | .live _, .release => ⟨[], .ok (.released, none)⟩
    | l, _ => ⟨[], .ok (l, none)⟩

theorem Machine.living_mapStop (f : X → Y) (m : Machine S I O E X) (s₀ : S) :
    (m.living s₀).mapStop f = (m.mapStop f).living s₀ := by
  refine congrArg Machine.mk (funext₂ fun l i => ?_)
  cases l with
  | unborn | released => cases i <;> rfl
  | live s =>
    cases i with
    | create | release => rfl
    | call i =>
      simp only [living, Turn.mapStop, mapStop, Turn.mk.injEq, true_and]
      cases (m.step s i).result <;> rfl

/-! ## Families -/

section Family

variable {H : Type} [DecidableEq H]

/-- The entries of a log that are `h`'s. -/
def logOf {α : Type} (h : H) (l : List (H × α)) : List α := l.filterMap fun p => if p.1 = h then some p.2 else none

section LogOf

variable {α : Type} {h h' : H} {l l' : List (H × α)}

@[simp] theorem logOf_nil : logOf h ([] : List (H × α)) = [] := rfl

@[simp] theorem logOf_append : logOf h (l ++ l') = logOf h l ++ logOf h l' := List.filterMap_append

theorem logOf_cons {a : α} : logOf h ((h', a) :: l) = if h' = h then a :: logOf h l else logOf h l := by
  unfold logOf
  rw [List.filterMap_cons]
  split <;> split <;> simp_all

/-- What one member logs is its own. -/
theorem logOf_map (es : List α) : logOf h (es.map (h', ·)) = if h' = h then es else [] := by
  induction es with
  | nil => simp
  | cons e es ih =>
    rw [List.map_cons, logOf_cons, ih]
    split <;> rfl

end LogOf

/-- Members that are all the machine `m`, each in a state of its own: an input
is taken by the member it is addressed to. -/
def Machine.family (m : Machine S I O E X) : Machine (H → S) (H × I) (H × O) (H × E) X where
  step σ p := {
    events := (m.step (σ p.1) p.2).events.map (p.1, ·)
    result := match (m.step (σ p.1) p.2).result with
      | .error x => .error x
      | .ok (s, o) => .ok (Function.update σ p.1 s, (p.1, o))
  }

theorem Machine.family_mapStop (f : X → Y) (m : Machine S I O E X) :
    (m.family : Machine (H → S) (H × I) (H × O) (H × E) X).mapStop f = (m.mapStop f).family := by
  refine congrArg Machine.mk (funext₂ fun σ p => ?_)
  simp only [family, Turn.mapStop, mapStop, Turn.mk.injEq, true_and]
  cases (m.step (σ p.1) p.2).result <;> rfl

/-- What each member does in the run `r` of a family, it does alone on the
inputs among `js` that are its own. -/
structure Machine.Alone (m : Machine S I O E X) (σ : H → S) (js : List (H × I)) (r : Run (H → S) (H × O) (H × E) X) :
    Prop where
  events : ∀ h, logOf h r.events = (m.run (σ h) (logOf h js)).events
  answers : ∀ h, logOf h r.answers = (m.run (σ h) (logOf h js)).answers
  goesOn : ∀ σ', r.result = .ok σ' → ∀ h, m.Reaches (σ h) (logOf h js) (σ' h)
  stops : ∀ x, r.result = .error x → ∃ h, (m.run (σ h) (logOf h js)).result = .error x

variable {m : Machine S I O E X} {σ : H → S} {h : H} {i : I}

theorem Machine.alone_of_error {x : X} (hs : (m.step (σ h) i).result = .error x) :
    m.Alone σ [(h, i)] ⟨(m.step (σ h) i).events.map (h, ·), [], .error x⟩ := by
  have hrun : ∀ h', m.run (σ h') (logOf h' [(h, i)]) =
      if h = h' then ⟨(m.step (σ h) i).events, [], .error x⟩ else ⟨[], [], .ok (σ h')⟩ := by
    intro h'
    rw [logOf_cons, logOf_nil]
    split
    · rename_i he
      rw [← he, run_cons_error hs]
    · rfl
  refine ⟨fun h' => ?_, fun h' => ?_, fun _ he => (by cases he), fun x' he => ⟨h, ?_⟩⟩
  · rw [hrun, logOf_map]
    split <;> rfl
  · rw [hrun]
    split <;> rfl
  · cases he
    rw [hrun, if_pos rfl]

theorem Machine.Alone.cons {s' : S} {o : O} {js : List (H × I)} {r : Run (H → S) (H × O) (H × E) X}
    (hs : (m.step (σ h) i).result = .ok (s', o)) (hr : m.Alone (Function.update σ h s') js r) :
    m.Alone σ ((h, i) :: js)
      ⟨(m.step (σ h) i).events.map (h, ·) ++ r.events, (h, o) :: r.answers, r.result⟩ := by
  have hrun : ∀ h', m.run (σ h') (logOf h' ((h, i) :: js)) =
      if h = h' then ⟨(m.step (σ h) i).events ++ (m.run s' (logOf h js)).events, o :: (m.run s' (logOf h js)).answers,
        (m.run s' (logOf h js)).result⟩
      else m.run (Function.update σ h s' h') (logOf h' js) := by
    intro h'
    rw [logOf_cons]
    split
    · rename_i he
      rw [← he, run_cons_ok hs]
    · rename_i he
      rw [Function.update_of_ne (Ne.symm he)]
  have hself : Function.update σ h s' h = s' := Function.update_self h s' σ
  refine ⟨fun h' => ?_, fun h' => ?_, fun σ' he h' => ?_, fun x he => ?_⟩
  · rw [hrun, logOf_append, logOf_map, hr.events h']
    split
    · rename_i he
      rw [← he, hself]
    · rfl
  · rw [hrun, logOf_cons, hr.answers h']
    split
    · rename_i he
      rw [← he, hself]
    · rfl
  · have hreach := hr.goesOn σ' he h'
    unfold Machine.Reaches at hreach ⊢
    rw [hrun]
    split
    · rename_i heq
      rw [← heq, hself] at hreach
      rw [← heq]
      exact hreach
    · exact hreach
  · obtain ⟨h', hx⟩ := hr.stops x he
    refine ⟨h', ?_⟩
    rw [hrun]
    split
    · rename_i heq
      rw [← heq, hself] at hx
      exact hx
    · exact hx

/-- **A member's part in a run of the family is a run of its own.** The inputs
`js` are those taken before the family stopped: all of them, if it did not. -/
theorem Machine.run_family (m : Machine S I O E X) (σ : H → S) (is : List (H × I)) :
    ∃ js, js <+: is ∧ (∀ σ', m.family.Reaches σ is σ' → js = is) ∧ m.Alone σ js (m.family.run σ is) := by
  induction is generalizing σ with
  | nil =>
    refine ⟨[], List.prefix_rfl, fun _ _ => rfl, fun h => rfl, fun h => rfl, fun σ' hσ h => ?_, fun x hx => by cases hx⟩
    obtain rfl := Machine.reaches_nil.mp hσ
    exact Machine.reaches_nil.mpr rfl
  | cons p is ih =>
    obtain ⟨h, i⟩ := p
    cases hs : (m.step (σ h) i).result with
    | error x =>
      have hf : (m.family.step σ (h, i)).result = .error x := by simp only [family, hs]
      refine ⟨[(h, i)], List.cons_prefix_cons.mpr ⟨rfl, List.nil_prefix⟩, fun σ' hσ => ?_, ?_⟩
      · rw [Reaches, run_cons_error hf] at hσ
        cases hσ
      · rw [run_cons_error hf]
        exact Machine.alone_of_error hs
    | ok q =>
      obtain ⟨s', o⟩ := q
      have hf : (m.family.step σ (h, i)).result = .ok (Function.update σ h s', (h, o)) := by simp only [family, hs]
      obtain ⟨js, hpre, hall, halone⟩ := ih (Function.update σ h s')
      refine ⟨(h, i) :: js, List.cons_prefix_cons.mpr ⟨rfl, hpre⟩, fun σ' hσ => ?_, ?_⟩
      · obtain ⟨σ₁, o₁, hs₁, hr⟩ := reaches_cons.mp hσ
        rw [hf] at hs₁
        cases hs₁
        rw [hall σ' hr]
      · rw [run_cons_ok hf]
        exact halone.cons hs

/-- Where all inputs are `h`'s, the family is that member. -/
theorem Machine.run_family_map (m : Machine S I O E X) (σ : H → S) (h : H) (is : List I) :
    (m.family.run σ (is.map (h, ·))).events = (m.run (σ h) is).events.map (h, ·) ∧
      (m.family.run σ (is.map (h, ·))).answers = (m.run (σ h) is).answers.map (h, ·) ∧
      ∀ x, (m.family.run σ (is.map (h, ·))).result = .error x ↔ (m.run (σ h) is).result = .error x := by
  induction is generalizing σ with
  | nil => exact ⟨rfl, rfl, fun x => iff_of_false nofun nofun⟩
  | cons i is ih =>
    rw [List.map_cons]
    cases hs : (m.step (σ h) i).result with
    | error x =>
      have hf : (m.family.step σ (h, i)).result = .error x := by simp only [family, hs]
      rw [run_cons_error hf, run_cons_error hs]
      exact ⟨rfl, rfl, fun x' => by simp only [Except.error.injEq]⟩
    | ok q =>
      obtain ⟨s', o⟩ := q
      have hf : (m.family.step σ (h, i)).result = .ok (Function.update σ h s', (h, o)) := by simp only [family, hs]
      obtain ⟨he, ha, hx⟩ := ih (Function.update σ h s')
      rw [Function.update_self] at he ha hx
      rw [run_cons_ok hf, run_cons_ok hs]
      refine ⟨?_, ?_, hx⟩
      · rw [he, List.map_append]
        rfl
      · rw [ha, List.map_cons]

end Family

end Machines
