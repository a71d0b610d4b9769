/-
What a script sees of a `PolarisClient`. Of an object only the APIs it has
count (`clientMachine`): which objects of the SDK its fields point to, and
what else the SDK handed out, changes no answer and no call
(`client_simulates`). The header demands that the initialiser of an API be
run before its operations; a run of the object keeps to that order
(`order_kept`).
-/
import Mathlib.Data.Finset.Insert
import PolarisPhp.Lib.Machine
import PolarisPhp.Ownership

namespace PolarisPhp

open Bytes

/-! ## The APIs of a client -/

inductive Api where
  | provider
  | consumer
  | limit
  deriving DecidableEq, Repr

namespace Api

/-- The field of an API. -/
def field (obj : PolarisCoreObject) : Api → Option Ptr
  | .provider => obj.provider
  | .consumer => obj.consumer
  | .limit => obj.limit

/-- The method that initialises it. -/
def init : Api → Method
  | .provider => .initProvider
  | .consumer => .initConsumer
  | .limit => .initLimit

/-- Does the SDK make one? -/
def made (sdk : Sdk) : Api → Bool
  | .provider => sdk.createProvider
  | .consumer => sdk.createConsumer
  | .limit => sdk.createLimit

end Api

/-- The API an operation works through. -/
def Operation.needs : Operation → Api
  | .register | .deregister | .heartbeat => .provider
  | .initService | .getOneInstance | .getInstances | .getAllInstances | .updateServiceCallResult => .consumer
  | .getQuota | .updateCallResult | .initQuotaWindow => .limit

theorem Operation.api_eq (op : Operation) (obj : PolarisCoreObject) : op.api obj = op.needs.field obj := by
  cases op <;> rfl

/-- The APIs an object has. -/
def PolarisCoreObject.ready (obj : PolarisCoreObject) : Finset Api :=
  ({.provider, .consumer, .limit} : Finset Api).filter fun a => (a.field obj).isSome

theorem PolarisCoreObject.mem_ready {obj : PolarisCoreObject} {a : Api} :
    a ∈ obj.ready ↔ (a.field obj).isSome := by
  cases a <;> simp [ready]

/-! ## The machine -/

/-- A constructor: the calls of its configuration, and a client without APIs
where the SDK takes it. -/
def configured (z : Zend) (sdk : Sdk) (args : List Zval) : Turn (Finset Api) Zval SdkCall Stop :=
  match parseA args with
  | .wrongCount | .failure => ⟨[], .error .exit⟩
  | .success arg =>
    match zArrvalP (some arg) >>= transferToStdMap z with
    | .error e => ⟨[], .error e⟩
    | .ok params => {
        events := [.setLogDir (params.sub Key.logDir), .createFromFile (params.sub Key.configPath)]
        result := if sdk.createFromFile (params.sub Key.configPath) ∧ sdk.createContext then .ok (∅, .null)
          else .error .exit
      }

/-- A client: the APIs it has, as its methods change and use them. -/
def clientMachine (z : Zend) : Machine (Finset Api) MethodCall Zval SdkCall Stop where
  step ready c :=
    match c.method with
    | .construct => configured z c.sdk c.args
    | .initProvider => ⟨[], .ok (if c.sdk.createProvider then insert .provider ready else ready, .null)⟩
    | .initConsumer => ⟨[], .ok (if c.sdk.createConsumer then insert .consumer ready else ready, .null)⟩
    | .initLimit => ⟨[], .ok (if c.sdk.createLimit then insert .limit ready else ready, .null)⟩
    | .operation op =>
      match op.parse z c.args with
      | .wrongCount => ⟨[], .ok (ready, .array Table.empty)⟩
      | .failure => ⟨[], .ok (ready, .long (-1))⟩
      | .success (reqVal, timeout, flowId) =>
        if op.needs ∈ ready then
          match op.serve z c.sdk reqVal timeout flowId with
          | .error e => ⟨[], .error e⟩
          | .ok s => ⟨[s.call], s.reply.map fun rep => (ready, .array rep)⟩
        else ⟨[], .ok (ready, .array (nullptrReply op.isNullptr))⟩

/-- A call's end as a turn of the object it was made on. -/
def turnOf : EStateM.Result Stop World Zval → Turn World Zval SdkCall Stop
  | .ok v w => ⟨w.calls, .ok ({ w with calls := [] }, v)⟩
  | .error e w => ⟨w.calls, .error e⟩

/-- The object itself: its world, and the calls its methods make. -/
def objectMachine (z : Zend) : Machine World MethodCall Zval SdkCall Stop where
  step w c := turnOf ((c.run z).run { w with calls := [] })

/-! ## Refinement -/

/-- The end of an initialiser. -/
theorem initApi_cases (api : PolarisCoreObject → Option Ptr)
    (set : PolarisCoreObject → Option Ptr → PolarisCoreObject) (made : Bool) (apiObject : Option Ptr → SdkObject)
    (w : World) :
    (initApi api set made apiObject).run w = .ok .null (match api w.obj with
      | some _ => w
      | none => { w with
        obj := set w.obj (if made then some w.heap.length else none)
        heap := if made then w.heap ++ [apiObject w.obj.globalCtx] else w.heap }) := by
  simp only [initApi, EStateM.run_bind, EStateM.run_get]
  cases api w.obj with
  | some p => rfl
  | none => cases made <;> rfl

/-- What of a world a client is. -/
def World.Sees (w : World) (ready : Finset Api) : Prop := w.obj.ready = ready

section Step

variable {z : Zend} {sdk : Sdk} {args : List Zval} {w : World} (hw : w.calls = [])
include hw

theorem construct_turn : (turnOf ((construct z sdk args).run w)).Rel World.Sees (configured z sdk args) := by
  rw [construct_cases, configured]
  cases parseA args with
  | wrongCount | failure =>
    simp only [turnOf, hw]
    exact .error
  | success arg =>
    dsimp only
    cases zArrvalP (some arg) >>= transferToStdMap z with
    | error e =>
      simp only [turnOf, hw]
      exact .error
    | ok params =>
      unfold constructResult
      by_cases hf : sdk.createFromFile (params.sub Key.configPath)
      · by_cases hc : sdk.createContext
        · simp only [hf, hc, turnOf, World.configured, hw, List.nil_append, if_true, and_self]
          exact .ok rfl
        · simp only [hf, hc, turnOf, World.configured, hw, List.nil_append, if_true, Bool.false_eq_true, if_false,
            and_false]
          exact .error
      · simp only [hf, turnOf, World.configured, hw, List.nil_append, Bool.false_eq_true, if_false, false_and]
        exact .error

theorem operation_turn (op : Operation) : (turnOf ((callOperation z sdk args op).run w)).Rel World.Sees
    ((clientMachine z).step w.obj.ready ⟨sdk, args, .operation op⟩) := by
  rw [callOperation_cases]
  simp only [clientMachine]
  cases op.parse z args with
  | wrongCount | failure =>
    simp only [turnOf, hw]
    exact .ok rfl
  | success a =>
    obtain ⟨reqVal, timeout, flowId⟩ := a
    simp only [PolarisCoreObject.mem_ready, ← op.api_eq]
    cases op.api w.obj with
    | none =>
      simp only [turnOf, hw, Option.isSome_none, Bool.false_eq_true, if_false]
      exact .ok rfl
    | some p =>
      simp only [Option.isSome_some, if_true]
      cases op.serve z sdk reqVal timeout flowId with
      | error e =>
        simp only [serveResult, turnOf, hw]
        exact .error
      | ok s =>
        simp only [serveResult, Served.result]
        cases s.reply with
        | error e =>
          simp only [turnOf, World.after, hw, List.nil_append]
          exact .error
        | ok rep =>
          simp only [turnOf, World.after, hw, List.nil_append]
          exact .ok rfl

/-- An initialiser of an API in a field that it sets. -/
theorem init_turn {a : Api} {api : PolarisCoreObject → Option Ptr}
    {set : PolarisCoreObject → Option Ptr → PolarisCoreObject} {made : Bool} {apiObject : Option Ptr → SdkObject}
    (hapi : ∀ obj, a.field obj = api obj) (hset : ∀ obj p, a.field (set obj p) = p)
    (hother : ∀ obj p b, b ≠ a → Api.field (set obj p) b = b.field obj) :
    (turnOf ((initApi api set made apiObject).run w)).Rel World.Sees
      ⟨[], .ok (if made then insert a w.obj.ready else w.obj.ready, .null)⟩ := by
  have hready : ∀ p, (set w.obj p).ready = if p.isSome then insert a w.obj.ready else w.obj.ready.erase a := by
    intro p
    ext b
    by_cases hb : b = a
    · subst hb
      cases p <;> simp [PolarisCoreObject.mem_ready, hset]
    · cases p <;> simp [PolarisCoreObject.mem_ready, hother _ _ _ hb, hb]
  rw [initApi_cases]
  cases hf : api w.obj with
  | some q =>
    have hin : a ∈ w.obj.ready := by simp [PolarisCoreObject.mem_ready, hapi, hf]
    simp only [turnOf, hw, Finset.insert_eq_of_mem hin, ite_self]
    exact .ok rfl
  | none =>
    have hout : a ∉ w.obj.ready := by simp [PolarisCoreObject.mem_ready, hapi, hf]
    simp only [turnOf, hw]
    refine .ok ?_
    unfold World.Sees
    cases made <;> simp [hready, Finset.erase_eq_of_notMem hout]

end Step

/-- A client's machine is what its object does. -/
theorem client_simulates (z : Zend) : Simulates World.Sees (objectMachine z) (clientMachine z) := by
  intro w ready c hsees
  obtain rfl : w.obj.ready = ready := hsees
  obtain ⟨sdk, args, method⟩ := c
  have hw : ({ w with calls := [] } : World).calls = [] := rfl
  cases method with
  | construct => exact construct_turn hw
  | initProvider =>
    dsimp only [objectMachine, clientMachine, MethodCall.run, callMethod, initProvider]
    refine init_turn hw (fun obj => rfl) (fun obj p => rfl) fun obj p b hb => ?_
    cases b <;> trivial
  | initConsumer =>
    dsimp only [objectMachine, clientMachine, MethodCall.run, callMethod, initConsumer]
    refine init_turn hw (fun obj => rfl) (fun obj p => rfl) fun obj p b hb => ?_
    cases b <;> trivial
  | initLimit =>
    dsimp only [objectMachine, clientMachine, MethodCall.run, callMethod, initLimit]
    refine init_turn hw (fun obj => rfl) (fun obj p => rfl) fun obj p b hb => ?_
    cases b <;> trivial
  | operation op => exact operation_turn hw op

/-- **An object refines a client.** Whatever its fields point to, and whatever
the methods called, their arguments and the SDK's answers: the calls made,
the replies and the reason of a stop are those of a client with its APIs. -/
theorem client_refines (z : Zend) (w : World) (l : List MethodCall) :
    ((objectMachine z).run w l).Rel World.Sees ((clientMachine z).run w.obj.ready l) :=
  (client_simulates z).run rfl l

/-! ## The log -/

/-- A call's end in a world that had the calls `cs` behind it. -/
def logged (cs : List SdkCall) : EStateM.Result Stop World Zval → EStateM.Result Stop World Zval
  | .ok v w => .ok v { w with calls := cs ++ w.calls }
  | .error e w => .error e { w with calls := cs ++ w.calls }

/-- No method looks at the log, and each writes at its end only. -/
theorem run_logged (z : Zend) (c : MethodCall) (w : World) :
    (c.run z).run w = logged w.calls ((c.run z).run { w with calls := [] }) := by
  obtain ⟨sdk, args, method⟩ := c
  cases method with
  | initProvider | initConsumer | initLimit =>
    simp only [MethodCall.run, callMethod, initProvider, initConsumer, initLimit, initApi_cases, logged]
    split <;> simp
  | construct =>
    simp only [MethodCall.run, callMethod, construct_cases]
    cases parseA args with
    | wrongCount | failure => simp [logged]
    | success arg =>
      dsimp only
      cases zArrvalP (some arg) >>= transferToStdMap z with
      | error e => simp [logged]
      | ok params =>
        simp only [constructResult, World.configured]
        split
        · split <;> simp [logged]
        · simp [logged]
  | operation op =>
    simp only [MethodCall.run, callMethod, callOperation_cases]
    cases op.parse z args with
    | wrongCount | failure => simp [logged]
    | success a =>
      dsimp only
      cases op.api w.obj with
      | none => simp [logged]
      | some p =>
        dsimp only
        cases op.serve z sdk a.1 a.2.1 a.2.2 with
        | error e => simp [serveResult, logged]
        | ok s => cases hs : s.reply <;> simp [serveResult, Served.result, hs, logged, World.after]

/-- The machine's runs are the runs of one call after the other. -/
theorem run_calls_iff {z : Zend} {l : List MethodCall} {w w' : World} {cs : List SdkCall} :
    (calls z l).run { w with calls := cs } = .ok () w' ↔ ∃ w₁, (objectMachine z).Reaches w l w₁ ∧
      w' = { w₁ with calls := cs ++ ((objectMachine z).run w l).events } := by
  induction l generalizing w cs with
  | nil =>
    simp only [Machine.reaches_nil, exists_eq_left', Machine.run, List.append_nil]
    exact ⟨fun h => (by cases h; rfl), fun h => h ▸ rfl⟩
  | cons c l ih =>
    have hstep : ((objectMachine z).step w c) = turnOf ((c.run z).run { w with calls := [] }) := rfl
    have hcons : (calls z (c :: l)).run { w with calls := cs } =
        match logged cs ((c.run z).run { w with calls := [] }) with
        | .ok _ w₁ => (calls z l).run w₁
        | .error e w₁ => .error e w₁ := by
      rw [← run_logged z c { w with calls := cs }]
      simp only [calls, List.forM_cons, EStateM.run_bind]
      cases (c.run z).run { w with calls := cs } <;> rfl
    rw [hcons]
    cases hr : (c.run z).run { w with calls := [] } with
    | error e w₁ =>
      rw [hr] at hstep
      simp only [logged, Machine.reaches_cons, hstep, turnOf, reduceCtorEq, false_and, exists_false]
    | ok v w₁ =>
      rw [hr] at hstep
      have hok : ((objectMachine z).step w c).result = .ok ({ w₁ with calls := [] }, v) := by rw [hstep]; rfl
      have hev : ((objectMachine z).step w c).events = w₁.calls := by rw [hstep]; rfl
      simp only [logged, Machine.reaches_cons, Machine.run_cons_ok hok, hok, hev, Except.ok.injEq, Prod.mk.injEq,
        ← List.append_assoc]
      rw [show ({ w₁ with calls := cs ++ w₁.calls } : World) = { { w₁ with calls := [] } with
        calls := cs ++ w₁.calls } from rfl, ih]
      refine exists_congr fun w₂ => and_congr_left fun _ => ⟨fun h => ⟨_, v, ⟨rfl, rfl⟩, h⟩, fun h => ?_⟩
      obtain ⟨_, _, ⟨rfl, rfl⟩, h⟩ := h
      exact h

/-! ## The order of calls -/

/-- Among the calls `l` the API was initialised, and nothing was constructed since. -/
def Initialised (a : Api) (l : List MethodCall) : Prop :=
  ∃ l₁ c l₂, l = l₁ ++ c :: l₂ ∧ c.method = a.init ∧ a.made c.sdk ∧ ∀ c' ∈ l₂, c'.method ≠ .construct

theorem initialised_concat {a : Api} {l : List MethodCall} {c : MethodCall} :
    Initialised a (l ++ [c]) ↔
      (Initialised a l ∧ c.method ≠ .construct) ∨ c.method = a.init ∧ a.made c.sdk := by
  constructor
  · rintro ⟨l₁, c₀, l₂, he, hm, hs, hl⟩
    rcases List.eq_nil_or_concat l₂ with rfl | ⟨l₃, c₁, rfl⟩
    · obtain ⟨-, he⟩ := List.append_inj' he rfl
      obtain rfl := List.singleton_inj.mp he
      exact .inr ⟨hm, hs⟩
    · rw [List.concat_eq_append, ← List.cons_append, ← List.append_assoc] at he
      obtain ⟨hl₁, hc₁⟩ := List.append_inj' he rfl
      obtain rfl := List.singleton_inj.mp hc₁
      subst hl₁
      exact .inl ⟨⟨l₁, c₀, l₃, rfl, hm, hs, fun c' hc => hl c' (by simp [hc])⟩, hl c (by simp)⟩
  · rintro (⟨⟨l₁, c₀, l₂, rfl, hm, hs, hl⟩, hc⟩ | ⟨hm, hs⟩)
    · refine ⟨l₁, c₀, l₂ ++ [c], by simp, hm, hs, fun c' hc' => ?_⟩
      rcases List.mem_append.mp hc' with h | h
      · exact hl c' h
      · rw [List.mem_singleton.mp h]
        exact hc
    · exact ⟨l, c, [], rfl, hm, hs, fun _ h => (by cases h)⟩

/-- What a call makes of the APIs. -/
theorem mem_of_client_step {z : Zend} {ready ready' : Finset Api} {c : MethodCall} {v : Zval} {a : Api}
    (h : ((clientMachine z).step ready c).result = .ok (ready', v)) :
    a ∈ ready' ↔ (a ∈ ready ∧ c.method ≠ .construct) ∨ c.method = a.init ∧ a.made c.sdk := by
  obtain ⟨sdk, args, method⟩ := c
  cases method with
  | construct =>
    have hnone : ready' = ∅ := by
      simp only [clientMachine, configured] at h
      split at h
      · cases h
      · cases h
      · split at h
        · cases h
        · dsimp only at h
          split at h
          · cases h
            rfl
          · cases h
    rw [hnone]
    cases a <;> simp [Api.init]
  | initProvider =>
    cases h
    cases hs : sdk.createProvider <;> cases a <;> simp [Api.init, Api.made, hs]
  | initConsumer =>
    cases h
    cases hs : sdk.createConsumer <;> cases a <;> simp [Api.init, Api.made, hs]
  | initLimit =>
    cases h
    cases hs : sdk.createLimit <;> cases a <;> simp [Api.init, Api.made, hs]
  | operation op =>
    have hsame : ready' = ready := by
      simp only [clientMachine] at h
      split at h
      · cases h
        rfl
      · cases h
        rfl
      · split at h
        · split at h
          · cases h
          · rename_i s _
            cases hr : s.reply with
            | error e =>
              rw [hr] at h
              cases h
            | ok rep =>
              rw [hr] at h
              cases h
              rfl
        · cases h
          rfl
    rw [hsame]
    cases a <;> simp [Api.init]

/-- A client has an API exactly when it was initialised since it was constructed. -/
theorem mem_iff_initialised {z : Zend} {l : List MethodCall} {ready : Finset Api}
    (h : (clientMachine z).Reaches ∅ l ready) (a : Api) : a ∈ ready ↔ Initialised a l := by
  induction l using List.reverseRecOn generalizing ready with
  | nil =>
    obtain rfl := Machine.reaches_nil.mp h
    simp [Initialised]
  | append_singleton l c ih =>
    obtain ⟨ready₀, v, hl, hc⟩ := Machine.reaches_concat.mp h
    rw [mem_of_client_step hc, ih hl, initialised_concat]

/-- An operation called on an object after the calls `l`, its arguments in
order: it reaches the SDK if its API was initialised and its request can be
read, and is refused, with nothing changed, if the API was not. -/
structure OrderKept (l : List MethodCall) (op : Operation) (w : World) (served : Except Stop Served)
    (t : Turn World Zval SdkCall Stop) : Prop where
  sent : Initialised op.needs l → t.events = served.toOption.toList.map Served.call
  answered : Initialised op.needs l → ∀ s rep, served = .ok s → s.reply = .ok rep → ∃ w', t.result = .ok (w', .array rep)
  refused : ¬ Initialised op.needs l → t = ⟨[], .ok ({ w with calls := [] }, .array (nullptrReply op.isNullptr))⟩

/-- **First the initialiser, then the operations**: in every run of an object. -/
theorem order_kept {z : Zend} {l : List MethodCall} {w : World}
    (h : (objectMachine z).Reaches polarisCoreCreateHandler l w) {sdk : Sdk} {args : List Zval} {op : Operation}
    {reqVal : Zval} {timeout flowId : UInt64} (hp : op.parse z args = .success (reqVal, timeout, flowId)) :
    OrderKept l op w (op.serve z sdk reqVal timeout flowId) ((objectMachine z).step w ⟨sdk, args, .operation op⟩) := by
  have hinit : (op.api w.obj).isSome ↔ Initialised op.needs l := by
    obtain ⟨ready, hr, hsees⟩ := (client_refines z polarisCoreCreateHandler l).reaches h
    rw [← mem_iff_initialised hr, ← (show w.obj.ready = ready from hsees), PolarisCoreObject.mem_ready, op.api_eq]
  have hstep : (objectMachine z).step w ⟨sdk, args, .operation op⟩ =
      turnOf ((callOperation z sdk args op).run { w with calls := [] }) := rfl
  rw [hstep, callOperation_cases, hp]
  dsimp only
  cases ha : op.api w.obj with
  | none =>
    have hno : ¬ Initialised op.needs l := by
      rw [← hinit, ha]
      exact Bool.false_ne_true
    exact ⟨fun hi => absurd hi hno, fun hi => absurd hi hno, fun _ => rfl⟩
  | some p =>
    have hyes : Initialised op.needs l := hinit.mp (by rw [ha]; rfl)
    refine ⟨fun _ => ?_, fun _ s rep hs hrep => ?_, fun hno => absurd hyes hno⟩
    · cases op.serve z sdk reqVal timeout flowId with
      | error e => rfl
      | ok s =>
        simp only [serveResult, Served.result]
        cases s.reply <;> rfl
    · simp only [hs, serveResult, Served.result, hrep]
      exact ⟨_, rfl⟩

/-- `new PolarisClient(["config_path" => "./polaris.yaml", "log_dir" => "/tmp"])`. -/
def newClient : MethodCall :=
  ⟨Sdk.idle, [.array (arrayLiteral [(Key.configPath, .str (lit "./polaris.yaml")), (Key.logDir, .str (lit "/tmp"))])],
    .construct⟩

/-- A heartbeat without fields, on a client that has just its provider. -/
theorem order_kept_heartbeat : ∃ w, (objectMachine (Zend.reading .withoutNul none)).Reaches polarisCoreCreateHandler
      [newClient, ⟨Sdk.idle, [], .initProvider⟩] w ∧
    OrderKept [newClient, ⟨Sdk.idle, [], .initProvider⟩] .heartbeat w
      (Operation.serve (Zend.reading .withoutNul none) Sdk.idle (.array Table.empty) 0 0 .heartbeat)
      ((objectMachine (Zend.reading .withoutNul none)).step w
        ⟨Sdk.idle, [.array Table.empty], .operation .heartbeat⟩) := by
  have hreach : ∃ w, (objectMachine (Zend.reading .withoutNul none)).Reaches polarisCoreCreateHandler
      [newClient, ⟨Sdk.idle, [], .initProvider⟩] w := ⟨_, rfl⟩
  obtain ⟨w, hw⟩ := hreach
  exact ⟨w, hw, order_kept hw rfl⟩

end PolarisPhp
