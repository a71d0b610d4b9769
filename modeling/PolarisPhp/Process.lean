/-
A PHP process with any number of `PolarisClient` objects. A script creates
them, calls their methods in any order and releases them; the SDK's objects
live in one heap, from which every call may be handed more.

No script can tell that there are others: what one object is called with,
answers and makes of the SDK is what it would alone (`isolation`). And in no
order of calls does an object come to hold, use or delete an SDK object of
another, or one that was deleted (`process_safe`).
-/
import PolarisPhp.Client

namespace PolarisPhp

open Bytes

/-! ## The process -/

/-- The objects of a process, numbered as its script names them. -/
abbrev Handle := Nat

structure Process where
  objects : Handle → Life PolarisCoreObject
  /-- the SDK objects handed to the extension -/
  heap : List SdkObject
  /-- the SDK objects `delete` ran on, in order -/
  deleted : List Ptr
  /-- the files of the `Config`s handed to the extension -/
  configs : List Bytes

namespace Process

def start : Process where
  objects := fun _ => .unborn
  heap := []
  deleted := []
  configs := []

/-- What a method of the object `obj` works on. -/
def world (p : Process) (obj : PolarisCoreObject) : World where
  obj := obj
  heap := p.heap
  deleted := p.deleted
  configs := p.configs
  calls := []
  efrees := 0

/-- What a method of `h` that ended in `w` leaves. -/
def leave (p : Process) (h : Handle) (l : Life PolarisCoreObject) (w : World) : Process where
  objects := Function.update p.objects h l
  heap := w.heap
  deleted := w.deleted
  configs := w.configs

end Process

/-- What a script does with an object. -/
abbrev Input := LifeInput MethodCall

/-- The process: an input is taken by the object it names. Before its
creation and after its release a script has no value to name it by. -/
def processMachine (z : Zend) : Machine Process (Handle × Input) (Handle × Option Zval) (Handle × SdkCall) Stop where
  step p i :=
    match i.2, p.objects i.1 with
    | .create, .unborn =>
      ⟨[], .ok ({ p with objects := Function.update p.objects i.1 (.live polarisCoreCreateHandler.obj) }, (i.1, none))⟩
    | .call c, .live obj =>
      match (c.run z).run (p.world obj) with
      | .ok v w => ⟨w.calls.map (i.1, ·), .ok (p.leave i.1 (.live w.obj) w, (i.1, some v))⟩
      | .error e w => ⟨w.calls.map (i.1, ·), .error e⟩
    | .release, .live obj =>
      match release.run (p.world obj) with
      | .ok _ w => ⟨w.calls.map (i.1, ·), .ok (p.leave i.1 .released w, (i.1, none))⟩
      | .error e w => ⟨w.calls.map (i.1, ·), .error e⟩
    | _, _ => ⟨[], .ok (p, (i.1, none))⟩

/-- A script, up to the first object it would create after a release: the
block of a released object is freed twice (`owned_iff`), so Zend may hand it
out twice, and nothing is said of what shares it. -/
structure Script where
  inputs : List (Handle × Input)
  orderly : inputs.Pairwise fun a b => a.2 = .release → b.2 ≠ .create

/-! ## Isolation -/

/-- What the clients of a process are. -/
def Process.Sees (p : Process) (σ : Handle → Life (Finset Api)) : Prop :=
  ∀ h, (p.objects h).map PolarisCoreObject.ready = σ h

/-- Every object of the process is a client that lives alone. -/
def clients (z : Zend) :
    Machine (Handle → Life (Finset Api)) (Handle × Input) (Handle × Option Zval) (Handle × SdkCall) Stop :=
  ((clientMachine z).living ∅).family

theorem Process.Sees.update {p p' : Process} {σ : Handle → Life (Finset Api)} (hs : p.Sees σ) {h : Handle}
    {l : Life PolarisCoreObject} {l' : Life (Finset Api)} (hp : p'.objects = Function.update p.objects h l)
    (hl : l.map PolarisCoreObject.ready = l') : p'.Sees (Function.update σ h l') := by
  intro k
  rw [hp]
  by_cases hk : k = h
  · subst hk
    rw [Function.update_self, Function.update_self, hl]
  · rw [Function.update_of_ne hk, Function.update_of_ne hk]
    exact hs k

theorem process_simulates (z : Zend) : Simulates Process.Sees (processMachine z) (clients z) := by
  intro p σ i hs
  obtain ⟨h, i⟩ := i
  have hh := hs h
  have hsame : p.Sees (Function.update σ h (σ h)) := by
    rw [Function.update_eq_self]
    exact hs
  simp only [processMachine, clients, Machine.family, Machine.living]
  rw [← hh] at hsame ⊢
  cases hobj : p.objects h with
  | unborn =>
    rw [hobj] at hsame
    cases i with
    | create => exact .ok (hs.update rfl rfl)
    | call c => exact .ok hsame
    | release => exact .ok hsame
  | released =>
    rw [hobj] at hsame
    cases i <;> exact .ok hsame
  | live obj =>
    rw [hobj] at hsame
    cases i with
    | create => exact .ok hsame
    | release => exact .ok (hs.update rfl rfl)
    | call c =>
      have hc : (turnOf ((c.run z).run (p.world obj))).Rel World.Sees ((clientMachine z).step obj.ready c) :=
        client_simulates z (p.world obj) obj.ready c rfl
      simp only [Life.map]
      generalize (clientMachine z).step obj.ready c = t at hc
      cases hr : (c.run z).run (p.world obj) with
      | error e w =>
        rw [hr] at hc
        cases hc
        exact .error
      | ok v w =>
        rw [hr] at hc
        cases hc with
        | ok hw => exact .ok (hs.update rfl (congrArg Life.live hw))

/-- What the inputs `is` do with `h`, and with nothing else. -/
def only (h : Handle) (is : List (Handle × Input)) : List (Handle × Input) := (logOf h is).map (h, ·)

/-- Each object does in the run of `is` what it does where it is the only one
of the process. The inputs `js` are those taken before the process stopped. -/
structure Isolated (z : Zend) (is js : List (Handle × Input)) : Prop where
  taken : js <+: is
  all : ∀ p, (processMachine z).Reaches .start is p → js = is
  calls : ∀ h, logOf h ((processMachine z).run .start is).events =
    logOf h ((processMachine z).run .start (only h js)).events
  answers : ∀ h, logOf h ((processMachine z).run .start is).answers =
    logOf h ((processMachine z).run .start (only h js)).answers
  stops : ∀ e, ((processMachine z).run .start is).result = .error e →
    ∃ h, ((processMachine z).run .start (only h js)).result = .error e

/-- **No object notices another**, in any interleaving of their calls. -/
theorem isolation (z : Zend) (s : Script) : ∃ js, Isolated z s.inputs js := by
  have hsees : Process.start.Sees fun _ => .unborn := fun _ => rfl
  have hsim : ∀ is, ((processMachine z).run .start is).Rel Process.Sees ((clients z).run (fun _ => .unborn) is) :=
    (process_simulates z).run hsees
  obtain ⟨js, hpre, hall, halone⟩ :=
    ((clientMachine z).living ∅).run_family (fun _ : Handle => .unborn) s.inputs
  have honly := fun h => ((clientMachine z).living ∅).run_family_map (fun _ : Handle => .unborn) h (logOf h js)
  refine ⟨js, hpre, fun p hp => ?_, fun h => ?_, fun h => ?_, fun e he => ?_⟩
  · obtain ⟨σ, hσ, -⟩ := (hsim s.inputs).reaches hp
    exact hall σ hσ
  · rw [(hsim _).events, (hsim _).events, only, clients, (honly h).1, logOf_map, if_pos rfl]
    exact halone.events h
  · rw [(hsim _).answers, (hsim _).answers, only, clients, (honly h).2.1, logOf_map, if_pos rfl]
    exact halone.answers h
  · obtain ⟨h, hx⟩ := halone.stops e ((hsim _).error_iff.mp he)
    exact ⟨h, (hsim _).error_iff.mpr (((honly h).2.2 e).mpr hx)⟩

/-! ## Ownership -/

/-- What an object holds. -/
def heldBy : Life PolarisCoreObject → List Ptr
  | .live obj => obj.held
  | .unborn | .released => []

/-- The books of the objects of a process. -/
def Process.books (p : Process) : Books Handle Ptr where
  made := Multiset.range p.heap.length
  held := fun h => heldBy (p.objects h)
  freed := p.deleted

theorem Effect.deleted {w w' : World} {e : Ledger.Entry Ptr} (h : Effect w e w') : w'.deleted = w.deleted := by
  cases h <;> rfl

/-- What an entry makes is new to the heap. -/
theorem Effect.fresh {w w' : World} {e : Ledger.Entry Ptr} (h : Effect w e w') :
    e.Fresh (Multiset.range w.heap.length) := by
  cases h <;> simp [Ledger.Entry.Fresh]

/-- What comes into the heap was created from the object's own context. -/
theorem Effect.heap {w w' : World} {e : Ledger.Entry Ptr} (h : Effect w e w') :
    w'.heap = w.heap ∨ ∃ o, w'.heap = w.heap ++ [o] ∧ ∀ ctx, o.createdFrom = some ctx → w.obj.globalCtx = some ctx := by
  cases h with
  | pass => exact .inl rfl
  | provider hn | consumer hn | limit hn => exact .inr ⟨_, rfl, fun _ hc => hc⟩
  | response ho => exact .inr ⟨_, rfl, fun _ hc => (by rw [ho] at hc; cases hc)⟩
  | context => exact .inr ⟨.context, rfl, fun _ hc => (by cases hc)⟩

/-- What was deleted before plays no part in it. -/
theorem Effect.undeleted {w w' : World} {e : Ledger.Entry Ptr} (h : Effect w e w') :
    Effect { w with deleted := [] } e { w' with deleted := [] } := by
  cases h with
  | pass => exact .pass
  | provider hn => exact .provider hn
  | consumer hn => exact .consumer hn
  | limit hn => exact .limit hn
  | response ho => exact .response ho
  | context => exact .context

/-- What another object is handed keeps an object's invariant. -/
theorem Inv.handed {w : World} (hi : Inv w) {o : SdkObject} (ho : ∀ ctx, o.createdFrom = some ctx →
    w.heap[ctx]? = some .context ∧ w.obj.globalCtx ≠ some ctx) : Inv { w with heap := w.heap ++ [o] } where
  booked := by
    have hb := hi.booked
    simp only [Ledger.Sound, World.ledger, List.length_append, List.length_singleton, Multiset.range_succ] at hb ⊢
    exact hb.trans (Multiset.le_cons_self _ _)
  own := ⟨fun p hp => getElem?_concat_of_some (hi.own.provider p hp),
    fun p hp => getElem?_concat_of_some (hi.own.consumer p hp), fun p hp => getElem?_concat_of_some (hi.own.limit p hp)⟩
  context := fun ctx hc => getElem?_concat_of_some (hi.context ctx hc)
  created := by
    intro p o' ctx hp hc
    rcases getElem?_concat_eq_some hp with hp | ⟨rfl, rfl⟩
    · obtain ⟨hctx, hin⟩ := hi.created p o' ctx hp hc
      exact ⟨getElem?_concat_of_some hctx, hin⟩
    · obtain ⟨hctx, hne⟩ := ho ctx hc
      exact ⟨getElem?_concat_of_some hctx, fun hg => absurd hg hne⟩
  notDeleted := hi.notDeleted
  notFreed := hi.notFreed

/-- What holds between the inputs of a process. -/
structure Process.Inv (p : Process) : Prop where
  books : p.books.Exclusive
  /-- each object's own invariant -/
  inv : ∀ h obj, p.objects h = .live obj → PolarisPhp.Inv { p.world obj with deleted := [] }
  contexts : ∀ (q : Ptr) (o : SdkObject) (ctx : Ptr), p.heap[q]? = some o → o.createdFrom = some ctx →
    p.heap[ctx]? = some .context
  /-- a context was deleted after what was created from it -/
  outlived : ∀ (q : Ptr) (o : SdkObject) (ctx : Ptr) (before after : List Ptr), p.heap[q]? = some o →
    o.createdFrom = some ctx → p.deleted = before ++ ctx :: after → q ∈ before

theorem Process.held_update {p : Process} {h : Handle} {l : Life PolarisCoreObject} (p' : Process)
    (hp : p'.objects = Function.update p.objects h l) :
    p'.books.held = Function.update p.books.held h (heldBy l : Multiset Ptr) := by
  funext k
  unfold books
  dsimp only
  rw [hp]
  by_cases hk : k = h
  · subst hk
    rw [Function.update_self, Function.update_self]
  · rw [Function.update_of_ne hk, Function.update_of_ne hk]

/-- What an input that is taken does to the process. -/
inductive Process.Taken (z : Zend) (p : Process) (h : Handle) : Input → Process → Prop
  | create : p.objects h = .unborn →
      Taken z p h .create { p with objects := Function.update p.objects h (.live polarisCoreCreateHandler.obj) }
  | call {c obj v w} : p.objects h = .live obj → (c.run z).run (p.world obj) = .ok v w →
      Taken z p h (.call c) (p.leave h (.live w.obj) w)
  | release {obj} : p.objects h = .live obj → Taken z p h .release
      { p with objects := Function.update p.objects h .released, deleted := p.deleted ++ obj.held }

/-- An input is taken, or lost because the object is not there. -/
theorem process_cases {z : Zend} {p p' : Process} {h : Handle} {i : Input} {o : Handle × Option Zval}
    (hs : ((processMachine z).step p (h, i)).result = .ok (p', o)) :
    p.Taken z h i p' ∨ p' = p ∧ ∀ obj c, p.objects h = .live obj → i ≠ .call c := by
  simp only [processMachine] at hs
  cases hobj : p.objects h with
  | unborn =>
    rw [hobj] at hs
    cases i with
    | create =>
      cases hs
      exact .inl (.create hobj)
    | call c =>
      cases hs
      exact .inr ⟨rfl, fun _ _ h => by cases h⟩
    | release =>
      cases hs
      exact .inr ⟨rfl, fun _ _ h => by cases h⟩
  | released =>
    rw [hobj] at hs
    cases i <;> cases hs <;> exact .inr ⟨rfl, fun _ _ h => by cases h⟩
  | live obj =>
    rw [hobj] at hs
    cases i with
    | create =>
      cases hs
      exact .inr ⟨rfl, fun _ _ _ h => by cases h⟩
    | release =>
      dsimp only at hs
      rw [run_release] at hs
      cases hs
      exact .inl (.release hobj)
    | call c =>
      dsimp only at hs
      cases hr : (c.run z).run (p.world obj) with
      | error e w =>
        rw [hr] at hs
        cases hs
      | ok v w =>
        rw [hr] at hs
        cases hs
        exact .inl (.call hobj hr)

section Taken

variable {z : Zend} {p p' : Process} {h : Handle}

theorem Process.ledger_eq {obj : PolarisCoreObject} (hobj : p.objects h = .live obj) :
    p.books.ledger h = (p.world obj).ledger := by
  simp only [Books.ledger, books, World.ledger, world, hobj, heldBy]

/-- A call posts one entry to the books of its object. -/
theorem Process.books_call {c : MethodCall} {obj : PolarisCoreObject} {v : Zval} {w : World}
    (hobj : p.objects h = .live obj) (hr : (c.run z).run (p.world obj) = .ok v w) :
    ∃ e, Effect (p.world obj) e w ∧ (p.leave h (.live w.obj) w).books = p.books.post h e ∧
      (e.Clean (p.books.ledger h) ↔ c.Careful z (p.world obj)) := by
  obtain ⟨e, heff, hclean⟩ := call_cases hr
  have hw : w.ledger = (p.books.ledger h).post e := by rw [ledger_eq hobj, heff.ledger]
  refine ⟨e, heff, ?_, ledger_eq hobj ▸ hclean⟩
  have hheld := held_update (p.leave h (.live w.obj) w) rfl
  have hfreed : (p.leave h (.live w.obj) w).books.freed = p.books.freed :=
    congrArg (fun l : List Ptr => (l : Multiset Ptr)) heff.deleted
  have hmade : (p.leave h (.live w.obj) w).books.made = ((p.books.ledger h).post e).made := congrArg Ledger.made hw
  have hself : (heldBy (.live w.obj) : Multiset Ptr) = ((p.books.ledger h).post e).held := congrArg Ledger.held hw
  rw [hself] at hheld
  calc (p.leave h (.live w.obj) w).books
      = ⟨(p.leave h (.live w.obj) w).books.made, (p.leave h (.live w.obj) w).books.held,
          (p.leave h (.live w.obj) w).books.freed⟩ := rfl
    _ = p.books.post h e := by rw [hmade, hheld, hfreed]; rfl

theorem Process.held_world {obj : PolarisCoreObject} {q : Ptr} (hobj : p.objects h = .live obj) :
    q ∈ p.books.held h ↔ q ∈ obj.held := by
  simp [books, hobj, heldBy]

/-- A live object after the input of `h`: it is `h`'s, or it was there. -/
theorem Process.live_update {l : Life PolarisCoreObject} {k : Handle} {obj : PolarisCoreObject}
    (hk : Function.update p.objects h l k = .live obj) : k = h ∧ l = .live obj ∨ k ≠ h ∧ p.objects k = .live obj := by
  by_cases hkh : k = h
  · subst hkh
    rw [Function.update_self] at hk
    exact .inl ⟨rfl, hk⟩
  · rw [Function.update_of_ne hkh] at hk
    exact .inr ⟨hkh, hk⟩

theorem Process.books_create (hobj : p.objects h = .unborn) :
    Process.books { p with objects := Function.update p.objects h (.live polarisCoreCreateHandler.obj) } = p.books := by
  have hheld := held_update { p with objects := Function.update p.objects h (.live polarisCoreCreateHandler.obj) } rfl
  have hsame : p.books.held h = (heldBy (.live polarisCoreCreateHandler.obj) : Multiset Ptr) := by
    simp only [books, hobj]
    rfl
  rw [← hsame, Function.update_eq_self] at hheld
  exact congrArg (Books.mk p.books.made · p.books.freed) hheld

/-- An object that is new has nothing to keep. -/
theorem Process.Inv.create (hi : p.Inv) (hobj : p.objects h = .unborn) :
    Process.Inv { p with objects := Function.update p.objects h (.live polarisCoreCreateHandler.obj) } := by
  refine ⟨?_, fun k obj hk => ?_, hi.contexts, hi.outlived⟩
  · rw [books_create hobj]
    exact hi.books
  · rcases live_update hk with ⟨-, he⟩ | ⟨-, hk⟩
    · cases he
      exact ⟨Multiset.zero_le _, ⟨nofun, nofun, nofun⟩, nofun,
        fun q o ctx hq hc => ⟨hi.contexts q o ctx hq hc, nofun⟩, rfl, rfl⟩
    · exact hi.inv k obj hk

theorem Process.Inv.call (hi : p.Inv) {c : MethodCall} {obj : PolarisCoreObject} {v : Zval} {w : World}
    (hobj : p.objects h = .live obj) (hr : (c.run z).run (p.world obj) = .ok v w) :
    (p.leave h (.live w.obj) w).Inv := by
  obtain ⟨e, heff, hbooks, -⟩ := books_call hobj hr
  have hown := hi.inv h obj hobj
  have hdel : w.deleted = p.deleted := heff.deleted
  -- what the call put in the heap was created from the context of `h`
  have hctx : ∀ ctx, obj.globalCtx = some ctx → p.heap[ctx]? = some .context ∧ ctx ∈ p.books.held h := by
    intro ctx hc
    refine ⟨hown.context ctx hc, (held_world hobj).mpr ?_⟩
    simp [PolarisCoreObject.held, hc]
  refine ⟨?_, fun k obj' hk => ?_, fun q o ctx hq hc => ?_, fun q o ctx before after hq hc hd => ?_⟩
  · rw [hbooks]
    exact hi.books.post heff.fresh
  · rcases live_update hk with ⟨-, he⟩ | ⟨hne, hk⟩
    · cases he
      have hinv := heff.undeleted.inv hown
      have hefrees : w.efrees = 0 := hinv.notFreed
      have hpass := (@Effect.pass _ [] w.configs).inv hinv
      rw [hefrees] at hpass
      exact hpass
    · -- the configurations of `h` are all the same to it
      have hinv := (@Effect.pass _ [] w.configs).inv (hi.inv k obj' hk)
      have hother : ∀ ctx, obj.globalCtx = some ctx → obj'.globalCtx ≠ some ctx := by
        intro ctx hc hc'
        refine hne (hi.books.eq_owner ((held_world hk).mpr ?_) (hctx ctx hc).2)
        simp [PolarisCoreObject.held, hc']
      rcases heff.heap with hw | ⟨o, hw, ho⟩
      · simp only [leave, world, hw]
        exact hinv
      · simp only [leave, world, hw]
        exact hinv.handed fun ctx hc => ⟨(hctx ctx (ho ctx hc)).1, hother ctx (ho ctx hc)⟩
  · dsimp only [leave] at hq ⊢
    rcases heff.heap with hw | ⟨o', hw, ho⟩
    · rw [hw] at hq ⊢
      exact hi.contexts q o ctx hq hc
    · rw [hw] at hq ⊢
      rcases getElem?_concat_eq_some hq with hq | ⟨-, rfl⟩
      · exact getElem?_concat_of_some (hi.contexts q o ctx hq hc)
      · exact getElem?_concat_of_some (hctx ctx (ho ctx hc)).1
  · dsimp only [leave] at hq hd
    rw [hdel] at hd
    rcases heff.heap with hw | ⟨o', hw, ho⟩
    · rw [hw] at hq
      exact hi.outlived q o ctx before after hq hc hd
    · rw [hw] at hq
      rcases getElem?_concat_eq_some hq with hq | ⟨-, rfl⟩
      · exact hi.outlived q o ctx before after hq hc hd
      · -- the context of a live object was not deleted
        refine absurd ?_ (hi.books.not_freed (hctx ctx (ho ctx hc)).2)
        simp [Process.books, hd]

theorem Process.books_release {obj : PolarisCoreObject} (hobj : p.objects h = .live obj) :
    Process.books { p with objects := Function.update p.objects h .released, deleted := p.deleted ++ obj.held } =
      p.books.settle h := by
  have hheld := held_update
    { p with objects := Function.update p.objects h .released, deleted := p.deleted ++ obj.held } rfl
  have hfreed : ((p.deleted ++ obj.held : List Ptr) : Multiset Ptr) = p.books.freed + p.books.held h := by
    simp [books, hobj, heldBy]
  exact congrArg₂ (Books.mk p.books.made) hheld hfreed

theorem Process.Inv.release (hi : p.Inv) {obj : PolarisCoreObject} (hobj : p.objects h = .live obj) :
    Process.Inv { p with objects := Function.update p.objects h .released, deleted := p.deleted ++ obj.held } := by
  refine ⟨?_, fun k obj' hk => ?_, hi.contexts, fun q o ctx before after hq hc hd => ?_⟩
  · rw [books_release hobj]
    exact hi.books.settle
  · rcases live_update hk with ⟨-, he⟩ | ⟨-, hk⟩
    · cases he
    · exact hi.inv k obj' hk
  · -- the context was deleted before, or is the object's
    rcases List.append_eq_append_iff.mp hd with ⟨as, rfl, hheld⟩ | ⟨cs, hdel, hcs⟩
    · exact List.mem_append_right _ ((hi.inv h obj hobj).notOutlived hq hc hheld)
    · cases cs with
      | nil =>
        have hnone : q ∈ [] := (hi.inv h obj hobj).notOutlived hq hc hcs.symm
        exact absurd hnone List.not_mem_nil
      | cons a cs =>
        cases hcs
        exact hi.outlived q o ctx before cs hq hc hdel

theorem Process.Inv.taken {i : Input} (hi : p.Inv) (ht : p.Taken z h i p') : p'.Inv := by
  cases ht with
  | create hobj => exact hi.create hobj
  | call hobj hr => exact hi.call hobj hr
  | release hobj => exact hi.release hobj

end Taken

theorem inv_start : Process.start.Inv where
  books := ⟨Multiset.nodup_zero, fun _ => Ledger.sound_empty, fun _ _ _ => Multiset.zero_disjoint _⟩
  inv := nofun
  contexts := by simp [Process.start]
  outlived := by simp [Process.start]

theorem inv_of_reaches {z : Zend} {is : List (Handle × Input)} {p : Process}
    (h : (processMachine z).Reaches .start is p) : p.Inv := by
  refine h.invariant (fun p i p' o hi hs => ?_) inv_start
  rcases process_cases hs with ht | ⟨rfl, -⟩
  · exact hi.taken ht
  · exact hi

/-! ## Safety -/

/-- What a script may rely on, whatever it did so far. -/
structure Process.Safe (p : Process) : Prop where
  apart : ∀ h k obj obj' q, p.objects h = .live obj → p.objects k = .live obj' → q ∈ obj.held → q ∈ obj'.held → h = k
  heldOnce : ∀ h obj, p.objects h = .live obj → obj.held.Nodup
  /-- no method works on what was deleted -/
  alive : ∀ h obj q, p.objects h = .live obj → q ∈ obj.held → q < p.heap.length ∧ q ∉ p.deleted
  own : ∀ h obj, p.objects h = .live obj → OwnContext (p.world obj)
  deletedOnce : p.deleted.Nodup
  notOutlived : ∀ (q : Ptr) (o : SdkObject) (ctx : Ptr) (before after : List Ptr), p.heap[q]? = some o →
    o.createdFrom = some ctx → p.deleted = before ++ ctx :: after → q ∈ before

theorem Process.Inv.safe {p : Process} (hi : p.Inv) : p.Safe where
  apart := fun h k obj obj' q hh hk hq hq' =>
    hi.books.eq_owner ((held_world hh).mpr hq) ((held_world hk).mpr hq')
  heldOnce := fun h obj hh => by
    have hn := (Multiset.nodup_add.mp (hi.books.nodup h)).2.1
    simp only [Process.books, hh, heldBy, Multiset.coe_nodup] at hn
    exact hn
  alive := fun h obj q hh hq => by
    have hheld := (held_world hh).mpr hq
    refine ⟨Multiset.mem_range.mp (hi.books.mem_made hheld), fun hd => hi.books.not_freed hheld ?_⟩
    simpa [Process.books] using hd
  own := fun h obj hh =>
    have hown := (hi.inv h obj hh).own
    ⟨hown.provider, hown.consumer, hown.limit⟩
  deletedOnce := by
    have hn := (Multiset.nodup_add.mp (hi.books.nodup 0)).1
    simpa [Process.books] using hn
  notOutlived := hi.outlived

/-- **No object holds or deletes what another holds, or what was deleted**, in
any interleaving of their calls and releases. -/
theorem process_safe {z : Zend} {s : Script} {p : Process} (h : (processMachine z).Reaches .start s.inputs p) :
    p.Safe :=
  (inv_of_reaches h).safe

/-! ## Leaks -/

/-- Everything the SDK handed out is held by an object or was deleted. -/
def Process.Accounted (p : Process) : Prop :=
  ∀ q < p.heap.length, q ∈ p.deleted ∨ ∃ h obj, p.objects h = .live obj ∧ q ∈ obj.held

/-- Every call is careful where it is made. -/
def CarefulInputs (z : Zend) (is : List (Handle × Input)) : Prop :=
  ∀ js h c p obj, js ++ [(h, .call c)] <+: is → (processMachine z).Reaches .start js p → p.objects h = .live obj →
    c.Careful z (p.world obj)

theorem Process.accounted_eq {p : Process} : p.Accounted ↔ p.books.Complete := by
  have hheld : ∀ q, (∃ h, q ∈ p.books.held h) ↔ ∃ h obj, p.objects h = .live obj ∧ q ∈ obj.held := by
    refine fun q => exists_congr fun h => ?_
    cases hobj : p.objects h with
    | live obj => simp [held_world hobj]
    | unborn | released => simp [books, hobj, heldBy]
  simp only [Accounted, Books.Complete, hheld]
  simp [books]

theorem carefulInputs_concat {z : Zend} {is : List (Handle × Input)} {h : Handle} {i : Input} :
    CarefulInputs z (is ++ [(h, i)]) ↔ CarefulInputs z is ∧ ∀ c p obj, i = .call c →
      (processMachine z).Reaches .start is p → p.objects h = .live obj → c.Careful z (p.world obj) := by
  constructor
  · intro hc
    refine ⟨fun js k c p obj hp => hc js k c p obj (hp.trans (List.prefix_append _ _)), ?_⟩
    rintro c p obj rfl hr hobj
    exact hc is h c p obj List.prefix_rfl hr hobj
  · rintro ⟨his, hc⟩ js k c p obj hp hr hobj
    rcases List.prefix_concat_iff.mp hp with he | hp
    · obtain ⟨rfl, hlast⟩ := List.append_inj' he rfl
      obtain ⟨rfl, rfl⟩ := Prod.mk.inj (List.singleton_inj.mp hlast)
      exact hc c p obj rfl hr hobj
    · exact his js k c p obj hp hr hobj

/-- An input that is taken keeps everything accounted for exactly when it is
no call, or a careful one. -/
theorem Process.complete_taken {z : Zend} {p p' : Process} {h : Handle} {i : Input} (hi : p.Inv)
    (ht : p.Taken z h i p') : p'.books.Complete ↔
      p.books.Complete ∧ ∀ c obj, i = .call c → p.objects h = .live obj → c.Careful z (p.world obj) := by
  cases ht with
  | create hobj => simp [books_create hobj]
  | release hobj => simp [books_release hobj, Books.complete_settle]
  | call hobj hr =>
    obtain ⟨e, heff, hbooks, hclean⟩ := books_call hobj hr
    rw [hbooks, Books.complete_post hi.books heff.fresh, hclean]
    refine and_congr_right fun _ => ⟨fun hc c' obj' he hobj' => ?_, fun hc => hc _ _ rfl hobj⟩
    cases he
    rw [hobj] at hobj'
    cases hobj'
    exact hc

theorem complete_iff {z : Zend} {is : List (Handle × Input)} {p : Process}
    (h : (processMachine z).Reaches .start is p) : p.books.Complete ↔ CarefulInputs z is := by
  induction is using List.reverseRecOn generalizing p with
  | nil =>
    obtain rfl := Machine.reaches_nil.mp h
    refine iff_of_true (fun q hq => absurd hq (Multiset.notMem_zero q)) fun js k c p obj hp => ?_
    simp at hp
  | append_singleton is i ih =>
    obtain ⟨k, i⟩ := i
    obtain ⟨p₀, o, hr, hs⟩ := Machine.reaches_concat.mp h
    -- the process before the input is the one the careful calls are judged in
    have hwhere : (∀ c p obj, i = .call c → (processMachine z).Reaches .start is p → p.objects k = .live obj →
          c.Careful z (p.world obj)) ↔
        ∀ c obj, i = .call c → p₀.objects k = .live obj → c.Careful z (p₀.world obj) := by
      refine ⟨fun hc c obj hi => hc c p₀ obj hi hr, fun hc c p obj hi hr' hobj => ?_⟩
      obtain rfl : p₀ = p := Except.ok.inj (hr.symm.trans hr')
      exact hc c obj hi hobj
    rw [carefulInputs_concat, hwhere, ← ih hr]
    rcases process_cases hs with ht | ⟨rfl, hlost⟩
    · exact p₀.complete_taken (inv_of_reaches hr) ht
    · refine (and_iff_left fun c obj hi hobj => ?_).symm
      exact absurd hi (hlost obj c hobj)

/-- An input adds the configurations it asks for. -/
theorem configs_step {z : Zend} {p p' : Process} {h : Handle} {i : Input} {o : Handle × Option Zval}
    (hs : ((processMachine z).step p (h, i)).result = .ok (p', o)) : p'.configs =
      p.configs ++ ((processMachine z).step p (h, i)).events.filterMap fun e => e.2.configFile := by
  simp only [processMachine] at hs ⊢
  cases hobj : p.objects h with
  | unborn | released =>
    rw [hobj] at hs
    cases i <;> cases hs <;> exact (List.append_nil _).symm
  | live obj =>
    rw [hobj] at hs
    cases i with
    | create =>
      cases hs
      exact (List.append_nil _).symm
    | release =>
      dsimp only at hs ⊢
      rw [run_release] at hs ⊢
      cases hs
      exact (List.append_nil _).symm
    | call c =>
      dsimp only at hs ⊢
      cases hr : (c.run z).run (p.world obj) with
      | error e w =>
        rw [hr] at hs
        cases hs
      | ok v w =>
        rw [hr] at hs
        cases hs
        obtain ⟨cs, hc, hf⟩ := accrues_call hr
        have hcalls : w.calls = cs := hc
        simp only [hcalls, List.filterMap_map]
        exact hf

/-- The configurations of a process are those its calls asked for, and all of them are left. -/
theorem configs_of_reaches {z : Zend} {is : List (Handle × Input)} {p : Process}
    (h : (processMachine z).Reaches .start is p) :
    p.configs = ((processMachine z).run .start is).events.filterMap fun e => e.2.configFile := by
  induction is using List.reverseRecOn generalizing p with
  | nil =>
    obtain rfl := Machine.reaches_nil.mp h
    rfl
  | append_singleton is i ih =>
    obtain ⟨p₀, o, hr, hs⟩ := Machine.reaches_concat.mp h
    rw [configs_step hs, ih hr, Machine.run_append hr, Machine.run_cons_ok hs, ← List.filterMap_append]
    simp only [Machine.run, List.append_nil]

/-- What becomes of what the SDK hands out in a process. -/
structure LeakFree (z : Zend) (is : List (Handle × Input)) (p : Process) : Prop where
  accounted : p.Accounted ↔ CarefulInputs z is
  /-- with every object of the script released -/
  gone : (∀ h obj, p.objects h ≠ .live obj) →
    ((∀ q < p.heap.length, p.deleted.count q = 1) ↔ CarefulInputs z is)
  /-- a `Config` is left of each file that was read -/
  configs : p.configs = ((processMachine z).run .start is).events.filterMap fun e => e.2.configFile

/-- **Of contexts, APIs and responses only careless calls leak any**, whichever
objects they are made on: a constructor on an object that was constructed, and
an operation answered with a response. A configuration leaks with every
constructor. -/
theorem leakFree {z : Zend} {s : Script} {p : Process} (h : (processMachine z).Reaches .start s.inputs p) :
    LeakFree z s.inputs p := by
  have hacc : p.Accounted ↔ CarefulInputs z s.inputs := p.accounted_eq.trans (complete_iff h)
  refine ⟨hacc, fun hgone => ?_, configs_of_reaches h⟩
  have honce : ∀ q, p.deleted.count q = 1 ↔ q ∈ p.deleted := fun q =>
    ⟨fun hc => List.count_pos_iff.mp (by omega), fun hq => List.count_eq_one_of_mem (inv_of_reaches h).safe.deletedOnce hq⟩
  rw [← hacc]
  simp only [honce, Process.Accounted]
  refine forall₂_congr fun q _ => (or_iff_left ?_).symm
  rintro ⟨k, obj, hobj, -⟩
  exact hgone k obj hobj

/-! ## Two objects -/

/-- Two objects are constructed and given an API each, call about, and one is released. -/
def twoClients : Script where
  inputs := [(0, .create), (1, .create), (0, .call newClient), (1, .call newClient),
    (1, .call ⟨Sdk.idle, [], .initConsumer⟩), (0, .call ⟨Sdk.idle, [], .initProvider⟩), (0, .release)]
  orderly := by simp

theorem reaches_twoClients :
    ∃ p, (processMachine (Zend.reading .withoutNul none)).Reaches .start twoClients.inputs p := ⟨_, rfl⟩

theorem twoClients_safe : ∃ p, (processMachine (Zend.reading .withoutNul none)).Reaches .start twoClients.inputs p ∧
    p.Safe := by
  obtain ⟨p, hp⟩ := reaches_twoClients
  exact ⟨p, hp, process_safe hp⟩

theorem twoClients_leakFree :
    ∃ p, (processMachine (Zend.reading .withoutNul none)).Reaches .start twoClients.inputs p ∧
      LeakFree (Zend.reading .withoutNul none) twoClients.inputs p := by
  obtain ⟨p, hp⟩ := reaches_twoClients
  exact ⟨p, hp, leakFree hp⟩

end PolarisPhp
