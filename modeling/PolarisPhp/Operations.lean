/-
What a call of a method can do, said once. An operation refuses its
arguments, or finds no API object, or is served: its request decoded,
handed to the SDK and answered (`callOperation_cases`). The constructor
stops the process or leaves a new context in the object
(`construct_cases`).
-/
import PolarisPhp.Requests

namespace PolarisPhp

open Bytes Fallible

/-- What serving a request comes to: the call made, the code and the object
the SDK returned, and the answer. -/
structure Served where
  call : SdkCall
  code : ReturnCode
  handedOut : Option SdkObject
  reply : Except Stop HashTable

namespace Operation

/-- The operations without a timeout take one argument. -/
def parse (z : Zend) (args : List Zval) : Operation → Parsed (Zval × UInt64 × UInt64)
  | .heartbeat | .getQuota | .updateCallResult | .initQuotaWindow => match parseA args with
    | .wrongCount => .wrongCount
    | .failure => .failure
    | .success reqVal => .success (reqVal, 0, 0)
  | _ => parseALL z args

/-- The API object an operation needs. -/
def api (obj : PolarisCoreObject) : Operation → Option Ptr
  | .register | .deregister | .heartbeat => obj.provider
  | .initService | .getOneInstance | .getInstances | .getAllInstances | .updateServiceCallResult => obj.consumer
  | .getQuota | .updateCallResult | .initQuotaWindow => obj.limit

/-- What it answers without one. -/
def isNullptr : Operation → Bytes
  | .register | .deregister | .heartbeat => providerIsNullptr
  | .initService | .getOneInstance | .getInstances | .getAllInstances | .updateServiceCallResult =>
    consumerIsNullptr
  | .getQuota | .updateCallResult | .initQuotaWindow => limitIsNullptr

def serve (z : Zend) (sdk : Sdk) (reqVal : Zval) (timeout flowId : UInt64) : Operation → Except Stop Served
  | .register => do
    let req ← registerRequest z reqVal timeout flowId
    return ⟨.register req, (sdk.register req).1, none, .ok (registerReply sdk Table.empty req)⟩
  | .deregister => do
    let req ← deregisterRequest z reqVal timeout flowId
    let code := sdk.deregister req
    return ⟨.deregister req, code, none, .ok (addCode sdk code Table.empty)⟩
  | .heartbeat => do
    let req ← heartbeatRequest z reqVal
    let code := sdk.heartbeat req
    return ⟨.heartbeat req, code, none, .ok (addCode sdk code Table.empty)⟩
  | .initService => do
    let req ← initServiceRequest z reqVal timeout flowId
    let code := sdk.initService req
    return ⟨.initService req, code, none, .ok (addCode sdk code Table.empty)⟩
  | .getOneInstance => do
    let req ← getOneInstanceRequest z reqVal timeout flowId
    let o := sdk.getOneInstance req
    return ⟨.getOneInstance req, o.code, o.resp.object .instancesResponse, instancesReply sdk Table.empty o⟩
  | .getInstances => do
    let req ← getInstancesRequest z reqVal timeout flowId
    let o := sdk.getInstances req
    return ⟨.getInstances req, o.code, o.resp.object .instancesResponse, instancesReply sdk Table.empty o⟩
  | .getAllInstances => do
    let req ← getAllInstancesRequest z reqVal timeout flowId
    let o := sdk.getAllInstances req
    return ⟨.getAllInstances req, o.code, o.resp.object .instancesResponse, instancesReply sdk Table.empty o⟩
  | .updateServiceCallResult => do
    let req ← serviceCallResult z reqVal
    let code := sdk.updateServiceCallResult req
    return ⟨.updateServiceCallResult req, code, none, .ok (addCode sdk code Table.empty)⟩
  | .getQuota => do
    let req ← convertToQuotaRequest z reqVal
    let o := sdk.getQuota req
    return ⟨.getQuota req, o.code, o.resp.object .quotaResponse, quotaReply sdk Table.empty o⟩
  | .updateCallResult => do
    let req ← limitCallResult z reqVal
    let code := sdk.updateCallResult req
    return ⟨.updateCallResult req, code, none, .ok (addCode sdk code Table.empty)⟩
  | .initQuotaWindow => do
    let req ← convertToQuotaRequest z reqVal
    let code := sdk.initQuotaWindow req
    return ⟨.initQuotaWindow req, code, none, .ok (addCode sdk code Table.empty)⟩

end Operation

/-! ## Runs -/

/-- The end of a call that was served. -/
def Served.result (s : Served) (w : World) : EStateM.Result Stop World Zval :=
  match s.reply with
  | .ok rep => .ok (.array rep) (w.after s.call s.handedOut)
  | .error e => .error e (w.after s.call s.handedOut)

/-- The end of a call of an operation with arguments in order. -/
def serveResult (served : Except Stop Served) (w : World) : EStateM.Result Stop World Zval :=
  match served with
  | .ok s => s.result w
  | .error e => .error e w

/-- The array with a code of the extension's own. -/
def nullptrReply (errMsg : Bytes) : HashTable :=
  addAssocStringl (addAssocLong Table.empty Key.code (-1)) Key.errMsg errMsg

section ApiMethod

variable {α Req : Type} {args : Parsed α} {api : PolarisCoreObject → Option Ptr} {errMsg : Bytes} {w : World}

theorem run_apiMethod_refused {run : α → HashTable → Exec HashTable} :
    (args = .wrongCount → (apiMethod args api errMsg run).run w = .ok (.array Table.empty) w) ∧
      (args = .failure → (apiMethod args api errMsg run).run w = .ok (.long (-1)) w) := by
  constructor <;> (rintro rfl; rfl)

theorem run_apiMethod_nullptr {run : α → HashTable → Exec HashTable} {a : α} (h : args = .success a)
    (hp : api w.obj = none) : (apiMethod args api errMsg run).run w = .ok (.array (nullptrReply errMsg)) w := by
  subst h
  simp only [apiMethod, EStateM.run_bind, EStateM.run_get, hp]
  rfl

theorem run_apiMethod_serve {run : α → HashTable → Exec HashTable} {request : Except Stop Req}
    {toCall : Req → SdkCall} {code : Req → ReturnCode} {handedOut : Req → Option SdkObject}
    {answer : Req → Except Stop HashTable} {a : α} {p : Ptr} (h : args = .success a) (hp : api w.obj = some p)
    (hr : run a Table.empty = invoke request toCall handedOut answer) :
    (apiMethod args api errMsg run).run w =
      serveResult (do let req ← request; return ⟨toCall req, code req, handedOut req, answer req⟩) w := by
  subst h
  simp only [apiMethod, EStateM.run_bind, EStateM.run_get, hp, hr]
  cases request with
  | error e => rfl
  | ok req =>
    rw [invoke_ok rfl]
    cases ha : answer req <;> simp [serveResult, Served.result, bind, Except.bind, pure, Except.pure, ha,
      EStateM.pure, EStateM.run]

end ApiMethod

/-- Every operation is `apiMethod` of its arguments, its API object and its
service. -/
theorem callOperation_cases (z : Zend) (sdk : Sdk) (args : List Zval) (op : Operation) (w : World) :
    (callOperation z sdk args op).run w =
      match op.parse z args with
      | .wrongCount => .ok (.array Table.empty) w
      | .failure => .ok (.long (-1)) w
      | .success (reqVal, timeout, flowId) =>
        match op.api w.obj with
        | none => .ok (.array (nullptrReply op.isNullptr)) w
        | some _ => serveResult (op.serve z sdk reqVal timeout flowId) w := by
  cases op with
  | heartbeat | getQuota | updateCallResult | initQuotaWindow =>
    simp only [Operation.parse, Operation.api, Operation.isNullptr]
    cases hp : parseA args with
    | wrongCount => exact run_apiMethod_refused.1 hp
    | failure => exact run_apiMethod_refused.2 hp
    | success reqVal =>
      dsimp only
      split
      · rename_i hn
        exact run_apiMethod_nullptr hp hn
      · rename_i hn
        exact run_apiMethod_serve hp hn rfl
  | register | deregister | initService | getOneInstance | getInstances | getAllInstances
  | updateServiceCallResult =>
    simp only [Operation.parse, Operation.api, Operation.isNullptr]
    cases hp : parseALL z args with
    | wrongCount => exact run_apiMethod_refused.1 hp
    | failure => exact run_apiMethod_refused.2 hp
    | success a =>
      obtain ⟨reqVal, timeout, flowId⟩ := a
      dsimp only
      split
      · rename_i hn
        exact run_apiMethod_nullptr hp hn
      · rename_i hn
        exact run_apiMethod_serve hp hn rfl

/-- An operation that finds its arguments and its API object in order hands
over the call it is served with, or none. -/
theorem calls_callOperation {z : Zend} {sdk : Sdk} {args : List Zval} {op : Operation} {w : World} {reqVal : Zval}
    {timeout flowId : UInt64} {p : Ptr} (hp : op.parse z args = .success (reqVal, timeout, flowId))
    (ha : op.api w.obj = some p) :
    ((callOperation z sdk args op).world w).calls =
      match op.serve z sdk reqVal timeout flowId with
      | .ok s => w.calls ++ [s.call]
      | .error _ => w.calls := by
  unfold Exec.world
  rw [callOperation_cases, hp, ha]
  dsimp only
  cases op.serve z sdk reqVal timeout flowId with
  | error e => rfl
  | ok s =>
    simp only [serveResult, Served.result]
    cases s.reply <;> rfl

/-- Called on an object with its API, the operation makes one call, with `P`. -/
def Operation.Sends (z : Zend) (sdk : Sdk) (args : List Zval) (op : Operation) (P : SdkCall → Prop) : Prop :=
  ∀ w : World, (op.api w.obj).isSome → ∃ c, ((callOperation z sdk args op).world w).calls = w.calls ++ [c] ∧ P c

/-- Called on an object with its API, the operation makes no call. -/
def Operation.SendsNothing (z : Zend) (sdk : Sdk) (args : List Zval) (op : Operation) : Prop :=
  ∀ w : World, (op.api w.obj).isSome → ((callOperation z sdk args op).world w).calls = w.calls

/-- An object with all its APIs. -/
def World.ready : World := { polarisCoreCreateHandler with
  obj := { provider := some 0, consumer := some 0, limit := some 0 } }

theorem api_ready (op : Operation) : op.api World.ready.obj = some 0 := by cases op <;> rfl

section Sends

variable {z : Zend} {sdk : Sdk} {args : List Zval} {op : Operation} {reqVal : Zval} {timeout flowId : UInt64}
  (hp : op.parse z args = .success (reqVal, timeout, flowId))
include hp

theorem sends_iff {P : SdkCall → Prop} :
    op.Sends z sdk args P ↔ ∃ s, op.serve z sdk reqVal timeout flowId = .ok s ∧ P s.call := by
  refine ⟨fun h => ?_, fun h => ?_⟩
  · obtain ⟨c, hc, hP⟩ := h World.ready (by simp [api_ready])
    rw [calls_callOperation hp (api_ready op)] at hc
    cases hs : op.serve z sdk reqVal timeout flowId with
    | error e => simp [hs] at hc
    | ok s =>
      have he : s.call = c := by simpa [hs] using hc
      exact ⟨s, rfl, he ▸ hP⟩
  · obtain ⟨s, hs, hP⟩ := h
    intro w hw
    obtain ⟨p, hp'⟩ := Option.isSome_iff_exists.mp hw
    exact ⟨s.call, by rw [calls_callOperation hp hp', hs], hP⟩

theorem sendsNothing_iff :
    op.SendsNothing z sdk args ↔ ¬ ∃ s, op.serve z sdk reqVal timeout flowId = .ok s := by
  refine ⟨fun h => ?_, fun h => ?_⟩
  · rintro ⟨s, hs⟩
    have hc := h World.ready (by simp [api_ready])
    rw [calls_callOperation hp (api_ready op), hs] at hc
    simp at hc
  · intro w hw
    obtain ⟨p, hp'⟩ := Option.isSome_iff_exists.mp hw
    rw [calls_callOperation hp hp']
    cases hs : op.serve z sdk reqVal timeout flowId with
    | error e => rfl
    | ok s => exact absurd ⟨s, hs⟩ h

end Sends

/-! ## What an operation reads -/

/-- Everything the operation reads of the array can be read. -/
def Operation.Reads (z : Zend) (ht : HashTable) : Operation → Prop
  | .register => Decodable z ht ∧ ∃ m, Fetches z (findEntry z ht Key.metadata) (findEntry z ht Key.metadata) m
  | .deregister | .heartbeat => Decodable z ht
  | .initService | .getOneInstance => Decodable z ht ∧
      (∃ m, Fetches z (findEntry z ht Key.metadata) (findEntry z ht Key.metadata) m) ∧
      (∃ l, Fetches z (findEntry z ht Key.labels) (findEntry z ht Key.metadata) l) ∧
      ∃ s, FetchesSource z (findEntry z ht Key.sourceService) (findEntry z · Key.metadata) s
  | .getInstances => Decodable z ht ∧
      (∃ m, Fetches z (findEntry z ht Key.metadata) (findEntry z ht Key.metadata) m) ∧
      ∃ s, FetchesSource z (findEntry z ht Key.sourceService) (fun _ => findEntry z ht Key.metadata) s
  | .getAllInstances => Decodable z ht ∧
      (∃ m, Fetches z (findEntry z ht Key.metadata) (findEntry z ht Key.metadata) m) ∧
      ∃ s, FetchesSource z (findEntry z ht Key.sourceService) (findEntry z · Key.metadata) s
  | .updateServiceCallResult => Decodable z ht ∧
      (∃ s, Fetches z (findEntry z ht Key.serviceSubSet) (findEntry z ht Key.serviceSubSet) s) ∧
      (∃ l, Fetches z (findEntry z ht Key.labels) (findEntry z ht Key.labels) l) ∧
      (findEntry z ht Key.sourceService = none ∨
        ∃ src, findEntry z ht Key.sourceService = some (.array src) ∧ Decodable z src)
  | .getQuota | .initQuotaWindow => Decodable z ht ∧
      (∃ l, Fetches z (findEntry z ht Key.labels) (findEntry z ht Key.labels) l) ∧
      ∃ s, Fetches z (findEntry z ht Key.serviceSubSet) (findEntry z ht Key.serviceSubSet) s
  | .updateCallResult => Decodable z ht ∧ (∃ l, FetchesArray z (findEntry z ht Key.labels) l) ∧
      ∃ s, Fetches z (findEntry z ht Key.serviceSubSet) (findEntry z ht Key.serviceSubSet) s

theorem Operation.Reads.decodable {z : Zend} {ht : HashTable} {op : Operation} (h : op.Reads z ht) :
    Decodable z ht := by
  cases op with
  | deregister | heartbeat => exact h
  | register | initService | getOneInstance | getInstances | getAllInstances | updateServiceCallResult | getQuota
  | updateCallResult | initQuotaWindow => exact h.1

/-- A request is built exactly from what can be read. -/
theorem exists_serve {z : Zend} {ht : HashTable} (hs : Zval.Sound (.array ht)) (sdk : Sdk) (timeout flowId : UInt64)
    (op : Operation) : (∃ s, op.serve z sdk (.array ht) timeout flowId = .ok s) ↔ op.Reads z ht := by
  cases op with
  | register =>
    simp only [Operation.serve, exists_bind_pure_eq_ok, registerRequest_eq_ok hs]
    exact ⟨fun ⟨_, hd, m, hm, _⟩ => ⟨hd, m, hm⟩, fun ⟨hd, m, hm⟩ => ⟨_, hd, m, hm, rfl⟩⟩
  | deregister =>
    simp only [Operation.serve, exists_bind_pure_eq_ok, deregisterRequest_eq_ok hs]
    exact ⟨fun ⟨_, hd, _⟩ => hd, fun hd => ⟨_, hd, rfl⟩⟩
  | heartbeat =>
    simp only [Operation.serve, exists_bind_pure_eq_ok, heartbeatRequest_eq_ok hs]
    exact ⟨fun ⟨_, hd, _⟩ => hd, fun hd => ⟨_, hd, rfl⟩⟩
  | initService | getOneInstance =>
    simp only [Operation.serve, exists_bind_pure_eq_ok, initServiceRequest_eq_ok hs, getOneInstanceRequest_eq_ok hs]
    exact ⟨fun ⟨_, hd, m, l, s, hm, hl, hsrc, _⟩ => ⟨hd, ⟨m, hm⟩, ⟨l, hl⟩, s, hsrc⟩,
      fun ⟨hd, ⟨m, hm⟩, ⟨l, hl⟩, s, hsrc⟩ => ⟨_, hd, m, l, s, hm, hl, hsrc, rfl⟩⟩
  | getInstances | getAllInstances =>
    simp only [Operation.serve, exists_bind_pure_eq_ok, getInstancesRequest_eq_ok hs, getAllInstancesRequest_eq_ok hs]
    exact ⟨fun ⟨_, hd, m, s, hm, hsrc, _⟩ => ⟨hd, ⟨m, hm⟩, s, hsrc⟩,
      fun ⟨hd, ⟨m, hm⟩, s, hsrc⟩ => ⟨_, hd, m, s, hm, hsrc, rfl⟩⟩
  | updateServiceCallResult =>
    simp only [Operation.serve, exists_bind_pure_eq_ok, serviceCallResult_eq_ok hs]
    refine ⟨fun ⟨_, hd, s, l, hsub, hl, hsrc⟩ => ⟨hd, ⟨s, hsub⟩, ⟨l, hl⟩, ?_⟩,
      fun ⟨hd, ⟨s, hsub⟩, ⟨l, hl⟩, hsrc⟩ => ?_⟩
    · exact hsrc.imp And.left fun ⟨src, he, hds, _⟩ => ⟨src, he, hds⟩
    · rcases hsrc with hn | ⟨src, he, hds⟩
      · exact ⟨_, hd, s, l, hsub, hl, .inl ⟨hn, rfl⟩⟩
      · exact ⟨_, hd, s, l, hsub, hl, .inr ⟨src, he, hds, rfl⟩⟩
  | getQuota | initQuotaWindow =>
    simp only [Operation.serve, exists_bind_pure_eq_ok, convertToQuotaRequest_eq_ok hs]
    exact ⟨fun ⟨_, hd, l, s, hl, hsub, _⟩ => ⟨hd, ⟨l, hl⟩, s, hsub⟩,
      fun ⟨hd, ⟨l, hl⟩, s, hsub⟩ => ⟨_, hd, l, s, hl, hsub, rfl⟩⟩
  | updateCallResult =>
    simp only [Operation.serve, exists_bind_pure_eq_ok, limitCallResult_eq_ok hs]
    exact ⟨fun ⟨_, hd, l, s, hl, hsub, _⟩ => ⟨hd, ⟨l, hl⟩, s, hsub⟩,
      fun ⟨hd, ⟨l, hl⟩, s, hsub⟩ => ⟨_, hd, l, s, hl, hsub, rfl⟩⟩

/-! ## Configuration -/

/-- Is it a call of the configuration? -/
def SdkCall.configures : SdkCall → Bool
  | .setLogDir _ | .createFromFile _ => true
  | _ => false

theorem serve_configures {z : Zend} {sdk : Sdk} {reqVal : Zval} {timeout flowId : UInt64} {op : Operation} {s : Served}
    (h : op.serve z sdk reqVal timeout flowId = .ok s) : s.call.configures = false := by
  cases op <;> obtain ⟨req, -, he⟩ := bind_eq_ok.mp h <;> cases he <;> rfl

/-- The file a call has a configuration made of. -/
def SdkCall.configFile : SdkCall → Option Bytes
  | .createFromFile file => some file
  | _ => none

theorem SdkCall.configFile_eq_none {c : SdkCall} (h : c.configures = false) : c.configFile = none := by
  cases c with
  | setLogDir | createFromFile => cases h
  | register | deregister | heartbeat | initService | getOneInstance | getInstances | getAllInstances
  | updateServiceCallResult | getQuota | updateCallResult | initQuotaWindow => rfl

/-! ## The initialisers -/

/-- An initialiser leaves the world as it is, or an API object in the field
that was `NULL`. -/
theorem run_initApi {api : PolarisCoreObject → Option Ptr} {set : PolarisCoreObject → Option Ptr → PolarisCoreObject}
    {made : Bool} {apiObject : Option Ptr → SdkObject} {w w' : World} {v : Zval}
    (hset : ∀ obj, api obj = none → set obj none = obj)
    (h : (initApi api set made apiObject).run w = .ok v w') :
    w' = w ∨ api w.obj = none ∧ w' = { w with
      obj := set w.obj (some w.heap.length)
      heap := w.heap ++ [apiObject w.obj.globalCtx] } := by
  cases ha : api w.obj with
  | some p =>
    simp only [initApi, EStateM.run_bind, EStateM.run_get, ha] at h
    cases h
    exact .inl rfl
  | none =>
    simp only [initApi, EStateM.run_bind, EStateM.run_get, ha] at h
    cases made with
    | true =>
      cases h
      exact .inr ⟨rfl, rfl⟩
    | false =>
      cases h
      exact .inl (congrArg (fun obj => { w with obj := obj }) (hset _ ha))

/-! ## The constructor -/

/-- The calls of a constructor that decoded its parameters. -/
def World.configured (w : World) (params : StdMap) : World :=
  { w with calls := w.calls ++ [.setLogDir (params.sub Key.logDir)] ++ [.createFromFile (params.sub Key.configPath)] }

/-- The end of a constructor that decoded its parameters. -/
def constructResult (sdk : Sdk) (params : StdMap) (w : World) : EStateM.Result Stop World Zval :=
  if sdk.createFromFile (params.sub Key.configPath) then
    if sdk.createContext then
      .ok .null { w.configured params with
        obj := { globalCtx := some w.heap.length }
        heap := w.heap ++ [.context]
        configs := w.configs ++ [params.sub Key.configPath] }
    else .error .exit { w.configured params with
      obj := {}
      configs := w.configs ++ [params.sub Key.configPath] }
  else .error .exit (w.configured params)

theorem construct_cases (z : Zend) (sdk : Sdk) (args : List Zval) (w : World) :
    (construct z sdk args).run w =
      match parseA args with
      | .wrongCount | .failure => .error .exit w
      | .success arg =>
        match zArrvalP (some arg) >>= transferToStdMap z with
        | .error e => .error e w
        | .ok params => constructResult sdk params w := by
  unfold construct
  cases parseA args with
  | wrongCount | failure => rfl
  | success arg =>
    dsimp only
    cases zArrvalP (some arg) with
    | error e => rfl
    | ok paramMap =>
      dsimp only [bind, Except.bind]
      cases ht : transferToStdMap z paramMap with
      | error e => simp only [EStateM.bind, decode, pure, EStateM.pure, EStateM.run, ht]; rfl
      | ok params =>
        simp only [EStateM.bind, decode, pure, EStateM.pure, EStateM.run, ht, constructResult]
        by_cases hf : sdk.createFromFile (params.sub Key.configPath)
        · cases hc : sdk.createContext <;> simp only [hf, if_true] <;> rfl
        · simp only [hf]
          rfl

end PolarisPhp
