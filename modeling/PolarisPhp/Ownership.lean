/-
Who owns the SDK's objects over the life of a `PolarisClient`. Each call
that returns does one thing to the object and to what the SDK handed out
(`Effect`), and so posts one entry to the object's books. Releasing the
object deletes what its fields point to; whether that is everything depends
on the entries (`owned_iff`): a response handed out is in no field, and a
constructor overwrites the fields as they are. The block of the object
itself is freed by `free_obj` and by Zend, in every life.
-/
import PolarisPhp.Lib.Ledger
import PolarisPhp.Operations

namespace PolarisPhp

open Bytes Fallible

/-! ## The lives of an object -/

structure MethodCall where
  sdk : Sdk
  args : List Zval
  method : Method

def MethodCall.run (z : Zend) (c : MethodCall) : Exec Zval := callMethod z c.sdk c.args c.method

/-- Calls one after the other, whatever they answer. -/
def calls (z : Zend) (l : List MethodCall) : Exec Unit :=
  forM l fun c => do
    let _ ← c.run z
    return

/-- Calls, and the release of the object. -/
def lifetime (z : Zend) (l : List MethodCall) : Exec Unit := do
  calls z l
  release

/-- The context an API object was created from. -/
def SdkObject.createdFrom : SdkObject → Option Ptr
  | .providerApi ctx | .consumerApi ctx | .limitApi ctx => ctx
  | .context | .instancesResponse _ | .quotaResponse _ => none

namespace PolarisCoreObject

def apis (obj : PolarisCoreObject) : List Ptr := obj.provider.toList ++ obj.consumer.toList ++ obj.limit.toList

/-- What the four fields point to. -/
def held (obj : PolarisCoreObject) : List Ptr := obj.apis ++ obj.globalCtx.toList

end PolarisCoreObject

/-- Each API field points to an API object of its kind, created from the
context in the object. -/
structure OwnContext (w : World) : Prop where
  provider : ∀ p, w.obj.provider = some p → w.heap[p]? = some (.providerApi w.obj.globalCtx)
  consumer : ∀ p, w.obj.consumer = some p → w.heap[p]? = some (.consumerApi w.obj.globalCtx)
  limit : ∀ p, w.obj.limit = some p → w.heap[p]? = some (.limitApi w.obj.globalCtx)

/-- `P` holds after every one of the calls, and before the first. -/
def Between (z : Zend) (l : List MethodCall) (P : World → Prop) : Prop :=
  ∀ l' w, l' <+: l → (calls z l').run polarisCoreCreateHandler = .ok () w → P w

/-- What is asked of the life of an object that ends in `w`, as to the SDK's objects. -/
structure SdkObjectsOwned (z : Zend) (l : List MethodCall) (w : World) : Prop where
  deletedOnce : ∀ p < w.heap.length, w.deleted.count p = 1
  /-- a context is deleted after what was created from it -/
  notOutlived : ∀ (p : Ptr) (o : SdkObject) (ctx : Ptr) (before after : List Ptr), w.heap[p]? = some o →
    o.createdFrom = some ctx → w.deleted = before ++ ctx :: after → p ∈ before
  ownContext : Between z l OwnContext
  reachable : Between z l fun w => ∀ p < w.heap.length, p ∉ w.deleted → p ∈ w.obj.held

/-- What is asked of the life of an object. -/
structure Owned (z : Zend) (l : List MethodCall) (w : World) : Prop extends SdkObjectsOwned z l w where
  freedOnce : w.efrees = 1

/-- The call loses no object: a constructor finds the four fields `NULL`, an
operation is handed no response. -/
def MethodCall.Careful (z : Zend) (c : MethodCall) (w : World) : Prop :=
  match c.method with
  | .construct => w.obj = {}
  | .initProvider | .initConsumer | .initLimit => True
  | .operation op => ∀ reqVal timeout flowId s, op.parse z c.args = .success (reqVal, timeout, flowId) →
      op.api w.obj ≠ none → op.serve z c.sdk reqVal timeout flowId = .ok s → s.handedOut = none

/-- Every call is careful where it is made. -/
def CarefulRun (z : Zend) (l : List MethodCall) : Prop :=
  ∀ l' c w, l' ++ [c] <+: l → (calls z l').run polarisCoreCreateHandler = .ok () w → c.Careful z w

/-! ## What a call does -/

/-- What a call that returns does to a world, and the entry it posts. What it
adds to the calls and the configurations is left open. -/
inductive Effect (w : World) : Ledger.Entry Ptr → World → Prop
  | pass {cs files} : Effect w .pass { w with
      calls := cs
      configs := files }
  | provider : w.obj.provider = none → Effect w (.take w.heap.length) { w with
      obj := { w.obj with provider := some w.heap.length }
      heap := w.heap ++ [.providerApi w.obj.globalCtx] }
  | consumer : w.obj.consumer = none → Effect w (.take w.heap.length) { w with
      obj := { w.obj with consumer := some w.heap.length }
      heap := w.heap ++ [.consumerApi w.obj.globalCtx] }
  | limit : w.obj.limit = none → Effect w (.take w.heap.length) { w with
      obj := { w.obj with limit := some w.heap.length }
      heap := w.heap ++ [.limitApi w.obj.globalCtx] }
  | response {cs o} : o.createdFrom = none → Effect w (.leak w.heap.length) { w with
      calls := cs
      heap := w.heap ++ [o] }
  | context {cs files} : Effect w (.restart w.heap.length) { w with
      calls := cs
      configs := files
      obj := { globalCtx := some w.heap.length }
      heap := w.heap ++ [.context] }

/-- The books of the object. -/
def World.ledger (w : World) : Ledger Ptr where
  made := Multiset.range w.heap.length
  held := w.obj.held
  freed := w.deleted

theorem PolarisCoreObject.mem_apis {obj : PolarisCoreObject} {p : Ptr} :
    p ∈ obj.apis ↔ obj.provider = some p ∨ obj.consumer = some p ∨ obj.limit = some p := by
  simp [apis]

theorem PolarisCoreObject.held_eq_nil {obj : PolarisCoreObject} : obj.held = [] ↔ obj = {} := by
  obtain ⟨ctx, provider, consumer, limit⟩ := obj
  cases ctx <;> cases provider <;> cases consumer <;> cases limit <;> simp [held, apis]

theorem createdFrom_handedOut {z : Zend} {sdk : Sdk} {reqVal : Zval} {timeout flowId : UInt64} {op : Operation}
    {s : Served} (h : op.serve z sdk reqVal timeout flowId = .ok s) {o : SdkObject} (ho : s.handedOut = some o) :
    o.createdFrom = none := by
  have hobj : ∀ {R : Type} (mk : R → SdkObject) (p : OutParam R), (∀ r, (mk r).createdFrom = none) →
      p.object mk = some o → o.createdFrom = none := by
    intro R mk p hmk hp
    cases p with
    | untouched | nullptr => cases hp
    | response r =>
      cases hp
      exact hmk r
  cases op <;> obtain ⟨req, -, hs⟩ := bind_eq_ok.mp h <;> cases hs
  case getOneInstance | getInstances | getAllInstances | getQuota => exact hobj _ _ (fun _ => rfl) ho
  all_goals cases ho

theorem effect_construct {z : Zend} {sdk : Sdk} {args : List Zval} {w w' : World} {v : Zval}
    (h : (construct z sdk args).run w = .ok v w') : Effect w (.restart w.heap.length) w' := by
  rw [construct_cases] at h
  split at h
  · cases h
  · cases h
  · split at h
    · cases h
    · unfold constructResult at h
      split at h
      · split at h
        · cases h
          exact .context
        · cases h
      · cases h

theorem effect_initApi {api : PolarisCoreObject → Option Ptr} {set : PolarisCoreObject → Option Ptr → PolarisCoreObject}
    {made : Bool} {apiObject : Option Ptr → SdkObject} {w w' : World} {v : Zval}
    (hset : ∀ obj, api obj = none → set obj none = obj)
    (heff : api w.obj = none → Effect w (.take w.heap.length) { w with
      obj := set w.obj (some w.heap.length)
      heap := w.heap ++ [apiObject w.obj.globalCtx] })
    (h : (initApi api set made apiObject).run w = .ok v w') : ∃ e, Effect w e w' ∧ e.Clean w.ledger := by
  rcases run_initApi hset h with rfl | ⟨ha, rfl⟩
  · exact ⟨_, .pass, trivial⟩
  · exact ⟨_, heff ha, trivial⟩

theorem careful_operation {z : Zend} {sdk : Sdk} {args : List Zval} {op : Operation} {w : World} {reqVal : Zval}
    {timeout flowId : UInt64} (hp : op.parse z args = .success (reqVal, timeout, flowId)) :
    MethodCall.Careful z ⟨sdk, args, .operation op⟩ w ↔
      ∀ s, op.api w.obj ≠ none → op.serve z sdk reqVal timeout flowId = .ok s → s.handedOut = none := by
  constructor
  · intro h s
    exact h reqVal timeout flowId s hp
  · intro h _ _ _ s hp'
    rw [hp] at hp'
    cases hp'
    exact h s

theorem effect_served {z : Zend} {sdk : Sdk} {reqVal : Zval} {timeout flowId : UInt64} {op : Operation} {s : Served}
    {w w' : World} {v : Zval} (hs : op.serve z sdk reqVal timeout flowId = .ok s) (h : s.result w = .ok v w') :
    ∃ e, Effect w e w' ∧ (e.Clean w.ledger ↔ s.handedOut = none) := by
  have hw : w' = w.after s.call s.handedOut := by
    unfold Served.result at h
    split at h <;> cases h
    rfl
  subst hw
  cases ho : s.handedOut with
  | none =>
    refine ⟨.pass, ?_, iff_of_true trivial rfl⟩
    simp only [World.after, Option.toList_none, List.append_nil]
    exact .pass
  | some o => exact ⟨_, .response (createdFrom_handedOut hs ho), iff_of_false id (by simp)⟩

theorem effect_operation {z : Zend} {sdk : Sdk} {args : List Zval} {op : Operation} {w w' : World} {v : Zval}
    (h : (callOperation z sdk args op).run w = .ok v w') :
    ∃ e, Effect w e w' ∧ (e.Clean w.ledger ↔ MethodCall.Careful z ⟨sdk, args, .operation op⟩ w) := by
  rw [callOperation_cases] at h
  cases hp : op.parse z args with
  | wrongCount | failure =>
    rw [hp] at h
    cases h
    exact ⟨_, .pass, by simp [Ledger.Entry.Clean, MethodCall.Careful, hp]⟩
  | success a =>
    obtain ⟨reqVal, timeout, flowId⟩ := a
    simp only [hp] at h
    simp only [careful_operation hp]
    cases ha : op.api w.obj with
    | none =>
      simp only [ha] at h
      cases h
      exact ⟨_, .pass, by simp [Ledger.Entry.Clean]⟩
    | some p =>
      simp only [ha] at h
      cases hs : op.serve z sdk reqVal timeout flowId with
      | error e =>
        rw [hs] at h
        cases h
      | ok s =>
        simp only [hs, serveResult] at h
        obtain ⟨e, he, hc⟩ := effect_served hs h
        exact ⟨e, he, by simp [hc]⟩

theorem call_cases {z : Zend} {c : MethodCall} {w w' : World} {v : Zval} (h : (c.run z).run w = .ok v w') :
    ∃ e, Effect w e w' ∧ (e.Clean w.ledger ↔ c.Careful z w) := by
  obtain ⟨sdk, args, m⟩ := c
  cases m with
  | construct =>
    refine ⟨_, effect_construct h, ?_⟩
    simp only [Ledger.Entry.Clean, World.ledger, Multiset.coe_eq_zero, PolarisCoreObject.held_eq_nil]
    rfl
  | initProvider =>
    simp only [MethodCall.run, callMethod, initProvider] at h
    obtain ⟨e, he, hc⟩ := effect_initApi (fun obj ho => by rw [← ho]) .provider h
    exact ⟨e, he, iff_of_true hc trivial⟩
  | initConsumer =>
    simp only [MethodCall.run, callMethod, initConsumer] at h
    obtain ⟨e, he, hc⟩ := effect_initApi (fun obj ho => by rw [← ho]) .consumer h
    exact ⟨e, he, iff_of_true hc trivial⟩
  | initLimit =>
    simp only [MethodCall.run, callMethod, initLimit] at h
    obtain ⟨e, he, hc⟩ := effect_initApi (fun obj ho => by rw [← ho]) .limit h
    exact ⟨e, he, iff_of_true hc trivial⟩
  | operation op => exact effect_operation h

theorem Effect.ledger {w w' : World} {e : Ledger.Entry Ptr} (h : Effect w e w') : w'.ledger = w.ledger.post e := by
  cases h with
  | pass => rfl
  | provider hn | consumer hn | limit hn =>
    simp only [World.ledger, Ledger.post, PolarisCoreObject.held, PolarisCoreObject.apis, ← Multiset.coe_add, hn,
      Option.toList_some, Option.toList_none, Multiset.coe_singleton, Multiset.coe_nil, List.length_append,
      List.length_singleton, Multiset.range_succ, ← Multiset.singleton_add, zero_add, add_zero]
    ac_rfl
  | response ho => simp [World.ledger, Ledger.post]
  | context => simp [World.ledger, Ledger.post, PolarisCoreObject.held, PolarisCoreObject.apis]

/-! ## What holds between calls -/

/-- What holds in every state between the calls of a life. -/
structure Inv (w : World) : Prop where
  booked : w.ledger.Sound
  own : OwnContext w
  context : ∀ ctx, w.obj.globalCtx = some ctx → w.heap[ctx]? = some .context
  /-- what was created from the object's context is in the object -/
  created : ∀ (p : Ptr) (o : SdkObject) (ctx : Ptr), w.heap[p]? = some o → o.createdFrom = some ctx →
    w.heap[ctx]? = some .context ∧ (w.obj.globalCtx = some ctx → p ∈ w.obj.apis)
  notDeleted : w.deleted = []
  notFreed : w.efrees = 0

theorem inv_create : Inv polarisCoreCreateHandler where
  booked := Ledger.sound_empty
  own := ⟨by simp [polarisCoreCreateHandler], by simp [polarisCoreCreateHandler], by simp [polarisCoreCreateHandler]⟩
  context := by simp [polarisCoreCreateHandler]
  created := by simp [polarisCoreCreateHandler]
  notDeleted := rfl
  notFreed := rfl

/-- An object in a heap with one more is that one, or was there. -/
theorem getElem?_concat_eq_some {α : Type} {l : List α} {a b : α} {i : Nat} (h : (l ++ [a])[i]? = some b) :
    l[i]? = some b ∨ i = l.length ∧ b = a := by
  rw [List.getElem?_append] at h
  split at h
  · exact .inl h
  · rename_i hi
    rw [List.getElem?_singleton] at h
    split at h
    · rename_i h0
      exact .inr ⟨by omega, (Option.some.inj h).symm⟩
    · cases h

theorem getElem?_concat_of_some {α : Type} {l : List α} {a b : α} {i : Nat} (h : l[i]? = some b) :
    (l ++ [a])[i]? = some b := by
  rw [List.getElem?_append_left (List.getElem?_eq_some_iff.mp h).1, h]

/-- The objects in the heap keep what holds of them when one more comes in:
the ones created from the object's context stay in it, the new one among
them if it is one. -/
theorem Inv.created_concat {w : World} (hi : Inv w) {obj : PolarisCoreObject} {o : SdkObject}
    (hctx : obj.globalCtx = w.obj.globalCtx) (hapis : ∀ p ∈ w.obj.apis, p ∈ obj.apis)
    (ho : ∀ ctx, o.createdFrom = some ctx → w.obj.globalCtx = some ctx ∧ w.heap.length ∈ obj.apis) :
    ∀ (p : Ptr) (o' : SdkObject) (ctx : Ptr), (w.heap ++ [o])[p]? = some o' → o'.createdFrom = some ctx →
      (w.heap ++ [o])[ctx]? = some .context ∧ (obj.globalCtx = some ctx → p ∈ obj.apis) := by
  intro p o' ctx hp hc
  rcases getElem?_concat_eq_some hp with hp | ⟨rfl, rfl⟩
  · obtain ⟨hctx', hin⟩ := hi.created p o' ctx hp hc
    exact ⟨getElem?_concat_of_some hctx', fun hg => hapis p (hin (hctx ▸ hg))⟩
  · obtain ⟨hg, hin⟩ := ho ctx hc
    exact ⟨getElem?_concat_of_some (hi.context ctx hg), fun _ => hin⟩

/-- An API object created for the object's context, and put in a field that
was `NULL`, keeps the invariant. -/
theorem Inv.initialised {w : World} (hi : Inv w) {obj : PolarisCoreObject} {o : SdkObject} {w' : World}
    (hw : w' = { w with obj := obj, heap := w.heap ++ [o] }) (hbooked : w'.ledger.Sound) (hown : OwnContext w')
    (hctx : obj.globalCtx = w.obj.globalCtx) (ho : o.createdFrom = w.obj.globalCtx)
    (hapis : ∀ p ∈ w.obj.apis, p ∈ obj.apis) (hin : w.heap.length ∈ obj.apis) : Inv w' := by
  subst hw
  refine ⟨hbooked, hown, fun ctx hc => getElem?_concat_of_some (hi.context ctx (hctx ▸ hc)), ?_, hi.notDeleted,
    hi.notFreed⟩
  exact hi.created_concat hctx hapis fun ctx hc => ⟨ho ▸ hc, hin⟩

theorem Effect.inv {w w' : World} {e : Ledger.Entry Ptr} (h : Effect w e w') (hi : Inv w) : Inv w' := by
  have hbooked : w'.ledger.Sound := h.ledger ▸ hi.booked.post e
  have hold : ∀ {p o o'}, w.heap[p]? = some o → (w.heap ++ [o'])[p]? = some o := getElem?_concat_of_some
  have hnew : ∀ {p o}, some w.heap.length = some p → (w.heap ++ [o])[p]? = some o := by
    intro p o hp
    cases hp
    exact List.getElem?_concat_length
  have hown := hi.own
  cases h with
  | pass => exact ⟨hbooked, ⟨hown.1, hown.2, hown.3⟩, hi.context, hi.created, hi.notDeleted, hi.notFreed⟩
  | provider hn =>
    refine hi.initialised rfl hbooked ⟨fun p hp => hnew hp, fun p hp => hold (hown.consumer p hp),
      fun p hp => hold (hown.limit p hp)⟩ rfl rfl (fun p hp => ?_) (PolarisCoreObject.mem_apis.mpr (.inl rfl))
    simp only [PolarisCoreObject.mem_apis, hn, reduceCtorEq, false_or] at hp ⊢
    exact .inr hp
  | consumer hn =>
    refine hi.initialised rfl hbooked ⟨fun p hp => hold (hown.provider p hp), fun p hp => hnew hp,
      fun p hp => hold (hown.limit p hp)⟩ rfl rfl (fun p hp => ?_) (PolarisCoreObject.mem_apis.mpr (.inr (.inl rfl)))
    simp only [PolarisCoreObject.mem_apis, hn, reduceCtorEq, false_or] at hp ⊢
    exact hp.imp_right .inr
  | limit hn =>
    refine hi.initialised rfl hbooked ⟨fun p hp => hold (hown.provider p hp), fun p hp => hold (hown.consumer p hp),
      fun p hp => hnew hp⟩ rfl rfl (fun p hp => ?_) (PolarisCoreObject.mem_apis.mpr (.inr (.inr rfl)))
    simp only [PolarisCoreObject.mem_apis, hn, reduceCtorEq, or_false] at hp ⊢
    exact hp.imp_right .inl
  | response ho =>
    exact ⟨hbooked, ⟨fun p hp => hold (hown.provider p hp), fun p hp => hold (hown.consumer p hp),
      fun p hp => hold (hown.limit p hp)⟩, fun ctx hc => hold (hi.context ctx hc),
      hi.created_concat rfl (fun _ h => h) fun ctx hc => (by rw [ho] at hc; cases hc), hi.notDeleted, hi.notFreed⟩
  | context =>
    refine ⟨hbooked, ⟨nofun, nofun, nofun⟩, fun ctx hc => hnew hc, fun p o ctx hp hc => ?_, hi.notDeleted, hi.notFreed⟩
    rcases getElem?_concat_eq_some hp with hp | ⟨-, rfl⟩
    · have hctx := (hi.created p o ctx hp hc).1
      refine ⟨hold hctx, fun hg => ?_⟩
      -- nothing made before the new context was created from it
      cases hg
      simp at hctx
    · cases hc

/-! ## Runs -/

theorem run_calls_concat {z : Zend} {l : List MethodCall} {c : MethodCall} {w w' : World}
    (h : (calls z (l ++ [c])).run w = .ok () w') :
    ∃ w₀ v, (calls z l).run w = .ok () w₀ ∧ (c.run z).run w₀ = .ok v w' := by
  rw [calls, List.forM_append, EStateM.run_bind] at h
  split at h
  · rename_i w₀ hl
    rw [List.forM_cons, List.forM_nil, bind_pure_unit, EStateM.run_bind] at h
    split at h
    · rename_i v w₁ hc
      cases h
      exact ⟨w₀, v, hl, hc⟩
    · cases h
  · cases h

theorem carefulRun_concat {z : Zend} {l : List MethodCall} {c : MethodCall} :
    CarefulRun z (l ++ [c]) ↔
      CarefulRun z l ∧ ∀ w, (calls z l).run polarisCoreCreateHandler = .ok () w → c.Careful z w := by
  constructor
  · intro h
    exact ⟨fun l' c' w hp => h l' c' w (hp.trans (List.prefix_append l [c])), fun w => h l c w (List.prefix_refl _)⟩
  · rintro ⟨hl, hc⟩ l' c' w hp hw
    rcases List.prefix_concat_iff.mp hp with he | hp
    · obtain ⟨rfl, hc'⟩ := List.append_inj' he rfl
      obtain rfl := List.singleton_inj.mp hc'
      exact hc w hw
    · exact hl l' c' w hp hw

/-- Between the calls of a life the invariant holds, and the books balance
exactly when every call so far was careful. -/
theorem run_calls {z : Zend} {l : List MethodCall} {w : World}
    (h : (calls z l).run polarisCoreCreateHandler = .ok () w) :
    Inv w ∧ (w.ledger.Balanced ↔ CarefulRun z l) := by
  induction l using List.reverseRecOn generalizing w with
  | nil =>
    cases h
    refine ⟨inv_create, iff_of_true Ledger.balanced_empty fun l' c _ hp => ?_⟩
    simp at hp
  | append_singleton l c ih =>
    obtain ⟨w₀, v, hl, hc⟩ := run_calls_concat h
    obtain ⟨hinv, hbal⟩ := ih hl
    obtain ⟨e, heff, hclean⟩ := call_cases hc
    refine ⟨heff.inv hinv, ?_⟩
    rw [heff.ledger, Ledger.balanced_post hinv.booked, hbal, hclean, carefulRun_concat]
    refine and_congr_right fun _ => ⟨fun hcare w' hw' => ?_, fun hcare => hcare w₀ hl⟩
    rw [hl] at hw'
    cases hw'
    exact hcare

theorem run_release (w : World) :
    release.run w = .ok () { w with
      deleted := w.deleted ++ w.obj.held
      efrees := w.efrees + 2 } := by
  simp only [PolarisCoreObject.held, PolarisCoreObject.apis, ← List.append_assoc]
  rfl

theorem run_lifetime {z : Zend} {l : List MethodCall} {w : World}
    (h : (lifetime z l).run polarisCoreCreateHandler = .ok () w) :
    ∃ w₀, (calls z l).run polarisCoreCreateHandler = .ok () w₀ ∧ w = { w₀ with
      deleted := w₀.obj.held
      efrees := 2 } := by
  rw [lifetime, EStateM.run_bind] at h
  split at h
  · rename_i w₀ hl
    obtain ⟨hinv, -⟩ := run_calls hl
    rw [run_release] at h
    refine ⟨w₀, hl, ?_⟩
    cases h
    rw [hinv.notDeleted, hinv.notFreed]
    rfl
  · cases h

/-! ## Configurations -/

/-- From `w` to `w'` the configurations handed out are those asked for. -/
def World.Accrues (w w' : World) : Prop :=
  ∃ cs, w'.calls = w.calls ++ cs ∧ w'.configs = w.configs ++ cs.filterMap SdkCall.configFile

theorem World.accrues_refl (w : World) : w.Accrues w := ⟨[], by simp, by simp⟩

theorem World.Accrues.trans {w w₁ w₂ : World} (h : w.Accrues w₁) (h' : w₁.Accrues w₂) : w.Accrues w₂ := by
  obtain ⟨cs, hc, hf⟩ := h
  obtain ⟨cs', hc', hf'⟩ := h'
  exact ⟨cs ++ cs', by rw [hc', hc, List.append_assoc], by rw [hf', hf, List.filterMap_append, List.append_assoc]⟩

theorem accrues_construct {z : Zend} {sdk : Sdk} {args : List Zval} {w w' : World} {v : Zval}
    (h : (construct z sdk args).run w = .ok v w') : w.Accrues w' := by
  rw [construct_cases] at h
  split at h
  · cases h
  · cases h
  · split at h
    · cases h
    · unfold constructResult at h
      split at h
      · split at h
        · cases h
          exact ⟨[.setLogDir _, .createFromFile _], List.append_assoc _ _ _, rfl⟩
        · cases h
      · cases h

theorem accrues_initApi {api : PolarisCoreObject → Option Ptr}
    {set : PolarisCoreObject → Option Ptr → PolarisCoreObject} {made : Bool} {apiObject : Option Ptr → SdkObject}
    {w w' : World} {v : Zval} (hset : ∀ obj, api obj = none → set obj none = obj)
    (h : (initApi api set made apiObject).run w = .ok v w') : w.Accrues w' := by
  rcases run_initApi hset h with rfl | ⟨-, rfl⟩ <;> exact World.accrues_refl _

theorem accrues_operation {z : Zend} {sdk : Sdk} {args : List Zval} {op : Operation} {w w' : World} {v : Zval}
    (h : (callOperation z sdk args op).run w = .ok v w') : w.Accrues w' := by
  rw [callOperation_cases] at h
  split at h
  · cases h
    exact w.accrues_refl
  · cases h
    exact w.accrues_refl
  · split at h
    · cases h
      exact w.accrues_refl
    · unfold serveResult at h
      split at h
      · rename_i s hs
        have hnone : s.call.configFile = none := SdkCall.configFile_eq_none (serve_configures hs)
        unfold Served.result at h
        split at h <;> cases h
        exact ⟨[s.call], rfl, by simp [World.after, hnone]⟩
      · cases h

theorem accrues_call {z : Zend} {c : MethodCall} {w w' : World} {v : Zval} (h : (c.run z).run w = .ok v w') :
    w.Accrues w' := by
  obtain ⟨sdk, args, m⟩ := c
  cases m with
  | construct => exact accrues_construct h
  | initProvider =>
    simp only [MethodCall.run, callMethod, initProvider] at h
    exact accrues_initApi (fun obj ho => by rw [← ho]) h
  | initConsumer =>
    simp only [MethodCall.run, callMethod, initConsumer] at h
    exact accrues_initApi (fun obj ho => by rw [← ho]) h
  | initLimit =>
    simp only [MethodCall.run, callMethod, initLimit] at h
    exact accrues_initApi (fun obj ho => by rw [← ho]) h
  | operation op => exact accrues_operation h

/-- The configurations of a life are those its constructors asked for, and all of them are left. -/
theorem configs_calls {z : Zend} {l : List MethodCall} {w : World}
    (h : (calls z l).run polarisCoreCreateHandler = .ok () w) : w.configs = w.calls.filterMap SdkCall.configFile := by
  have hconf : polarisCoreCreateHandler.Accrues w := by
    induction l using List.reverseRecOn generalizing w with
    | nil =>
      cases h
      exact World.accrues_refl _
    | append_singleton l c ih =>
      obtain ⟨w₀, v, hl, hc⟩ := run_calls_concat h
      exact (ih hl).trans (accrues_call hc)
  obtain ⟨cs, hc, hf⟩ := hconf
  rw [hc, hf]
  rfl

/-! ## Ownership -/

theorem OwnContext.not_context {w : World} (h : OwnContext w) {ctx : Ptr} (hc : w.heap[ctx]? = some .context) :
    ctx ∉ w.obj.apis := by
  intro hm
  rcases PolarisCoreObject.mem_apis.mp hm with hp | hp | hp
  · simp [h.provider ctx hp] at hc
  · simp [h.consumer ctx hp] at hc
  · simp [h.limit ctx hp] at hc

/-- The fields are released in an order in which the context comes last. -/
theorem Inv.notOutlived {w : World} (hi : Inv w) {p : Ptr} {o : SdkObject} {ctx : Ptr} {before after : List Ptr}
    (hp : w.heap[p]? = some o) (hc : o.createdFrom = some ctx) (hd : w.obj.held = before ++ ctx :: after) :
    p ∈ before := by
  obtain ⟨hctx, hin⟩ := hi.created p o ctx hp hc
  have hapi : ctx ∉ w.obj.apis := hi.own.not_context hctx
  cases hg : w.obj.globalCtx with
  | none =>
    refine absurd ?_ hapi
    rw [PolarisCoreObject.held, hg, Option.toList_none, List.append_nil] at hd
    simp [hd]
  | some g =>
    rw [PolarisCoreObject.held, hg, Option.toList_some,
      List.append_cons_inj_of_notMem hapi List.not_mem_nil] at hd
    obtain ⟨rfl, rfl, -⟩ := hd
    exact hin hg

theorem CarefulRun.of_prefix {z : Zend} {l l' : List MethodCall} (h : CarefulRun z l) (hp : l' <+: l) :
    CarefulRun z l' :=
  fun l'' c w hp' => h l'' c w (hp'.trans hp)

/-- The books of an object that was released. -/
theorem deletedOnce_iff {z : Zend} {l : List MethodCall} {w : World}
    (h : (calls z l).run polarisCoreCreateHandler = .ok () w) :
    (∀ p < w.heap.length, w.obj.held.count p = 1) ↔ CarefulRun z l := by
  obtain ⟨hinv, hbal⟩ := run_calls h
  have hfreed : ∀ p, w.ledger.settle.freed.count p = w.obj.held.count p := by
    simp [Ledger.settle, World.ledger, hinv.notDeleted]
  have hmade : ∀ p, p ∈ w.ledger.settle.made ↔ p < w.heap.length := fun p => Multiset.mem_range
  rw [← hbal, ← Ledger.balanced_settle]
  constructor
  · intro hc
    refine hinv.booked.settle.balanced_of_count_freed (Multiset.nodup_range _) fun p hp => ?_
    rw [hfreed, hc p ((hmade p).mp hp)]
  · intro hb p hp
    rw [← hfreed]
    exact hb.count_freed (Multiset.nodup_range _) rfl ((hmade p).mpr hp)

theorem sdkObjectsOwned_iff {z : Zend} {l : List MethodCall} {w : World}
    (h : (lifetime z l).run polarisCoreCreateHandler = .ok () w) : SdkObjectsOwned z l w ↔ CarefulRun z l := by
  obtain ⟨w₀, hl, rfl⟩ := run_lifetime h
  constructor
  · intro ho
    exact (deletedOnce_iff hl).mp ho.deletedOnce
  · intro hc
    refine ⟨(deletedOnce_iff hl).mpr hc, fun _ _ _ _ _ => (run_calls hl).1.notOutlived, ?_, ?_⟩
    · exact fun l' w _ hw => (run_calls hw).1.own
    · intro l' w hp hw p hlt hd
      have hbal := (run_calls hw).2.mpr (hc.of_prefix hp)
      exact hbal.mem_held (Multiset.mem_range.mpr hlt) hd

theorem efrees_lifetime {z : Zend} {l : List MethodCall} {w : World}
    (h : (lifetime z l).run polarisCoreCreateHandler = .ok () w) : w.efrees = 2 := by
  obtain ⟨w₀, -, rfl⟩ := run_lifetime h
  rfl

/-- **No life is one without a fault**: the block of the object is freed
twice at the end of each. As to the SDK's objects, a life is faultless
exactly when each of its calls was careful. -/
theorem owned_iff {z : Zend} {l : List MethodCall} {w : World}
    (h : (lifetime z l).run polarisCoreCreateHandler = .ok () w) :
    ¬ Owned z l w ∧ (SdkObjectsOwned z l w ↔ CarefulRun z l) := by
  refine ⟨fun ho => ?_, sdkObjectsOwned_iff h⟩
  have hfreed := ho.freedOnce
  rw [efrees_lifetime h] at hfreed
  cases hfreed

/-! ## A short life -/

/-- `new PolarisClient(["config_path" => "./polaris.yaml", "log_dir" => "/tmp"])`. -/
def shortLife : List MethodCall :=
  [⟨Sdk.idle, [.array (arrayLiteral [(Key.configPath, .str (lit "./polaris.yaml")), (Key.logDir, .str (lit "/tmp"))])],
    .construct⟩]

theorem run_shortLife : ∃ w, (lifetime (Zend.reading .withoutNul none) shortLife).run polarisCoreCreateHandler =
    .ok () w := ⟨_, rfl⟩

/-- An object that is constructed and released is freed twice. -/
theorem owned_shortLife :
    ¬ ∀ (z : Zend) (l : List MethodCall) (w : World),
      (lifetime z l).run polarisCoreCreateHandler = .ok () w → Owned z l w := by
  intro h
  obtain ⟨w, hw⟩ := run_shortLife
  have hfreed := (h _ _ w hw).freedOnce
  rw [efrees_lifetime hw] at hfreed
  cases hfreed

/-- A client that registers an instance. -/
def providerLife : List MethodCall :=
  shortLife ++ [⟨Sdk.idle, [], .initProvider⟩] ++
    [⟨Sdk.idle, [.array (arrayLiteral [(Key.service, .str (lit "cart")), (Key.host, .str (lit "10.0.0.1"))]), .long 500,
      .long 1], .operation .register⟩]

/-- What the SDK made for it is deleted, though its block is freed twice too. -/
theorem owned_providerLife : ∃ w, (lifetime (Zend.reading .withoutNul none) providerLife).run polarisCoreCreateHandler =
      .ok () w ∧ ¬ Owned (Zend.reading .withoutNul none) providerLife w ∧
    SdkObjectsOwned (Zend.reading .withoutNul none) providerLife w := by
  have hrun : ∃ w, (lifetime (Zend.reading .withoutNul none) providerLife).run polarisCoreCreateHandler = .ok () w :=
    ⟨_, rfl⟩
  obtain ⟨w, hw⟩ := hrun
  have hnil : CarefulRun (Zend.reading .withoutNul none) [] := fun l' c _ hp => by simp at hp
  refine ⟨w, hw, (owned_iff hw).1, (owned_iff hw).2.mpr ?_⟩
  rw [providerLife, carefulRun_concat, carefulRun_concat, shortLife, ← List.nil_append [_], carefulRun_concat]
  refine ⟨⟨⟨hnil, fun w hw => ?_⟩, fun w _ => trivial⟩, fun w _ reqVal timeout flowId s _ _ hs => ?_⟩
  · cases hw
    rfl
  · obtain ⟨req, -, he⟩ := bind_eq_ok.mp hs
    cases he
    rfl

end PolarisPhp
