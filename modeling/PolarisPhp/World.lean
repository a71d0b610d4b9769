/-
What a method works on: the four pointers of the object behind `$this`,
the SDK objects handed to the extension, the configurations it was handed
besides, and a log of the calls made to the SDK. A method that stops (a bad
read, an `exit`) leaves the log as it was then.

Every operation has one shape (`invoke`): decode the request, hand it to
the SDK, take what the SDK hands back, answer. `invoke_ok`, `invoke_stop`
and `hands_invoke` say all there is to say about it.
-/
import PolarisPhp.Sdk
import PolarisPhp.Zend.Hash

namespace PolarisPhp

/-- An SDK object's place among those handed out. -/
abbrev Ptr := Nat

/-- What the extension keeps in a field or is answered with. -/
inductive SdkObject where
  | context
  | providerApi (context : Option Ptr)
  | consumerApi (context : Option Ptr)
  | limitApi (context : Option Ptr)
  | instancesResponse (r : InstancesResponse)
  | quotaResponse (r : QuotaResponse)

/-- The fields of `polaris_core_object` the methods use; `none` is `NULL`. -/
structure PolarisCoreObject where
  globalCtx : Option Ptr := none
  provider : Option Ptr := none
  consumer : Option Ptr := none
  limit : Option Ptr := none
  deriving DecidableEq

structure World where
  obj : PolarisCoreObject
  /-- the SDK objects handed to the extension -/
  heap : List SdkObject
  /-- the objects `delete` ran on, in order -/
  deleted : List Ptr
  /-- the files of the `Config`s handed to the extension; no field keeps one
  and no `delete` runs on one -/
  configs : List Bytes
  calls : List SdkCall
  /-- how often the block of the PHP object was freed -/
  efrees : Nat

/-- `polaris_core_create_handler`: `ecalloc` leaves the four pointers `NULL`. -/
def polarisCoreCreateHandler : World where
  obj := {}
  heap := []
  deleted := []
  configs := []
  calls := []
  efrees := 0

abbrev Exec := EStateM Stop World

/-- The world a run ends in, stopped or not. -/
def Exec.world {α : Type} (x : Exec α) (w : World) : World :=
  match x.run w with
  | .ok _ w' => w'
  | .error _ w' => w'

/-- `x` hands the SDK the one call `c`. -/
def Hands {α : Type} (x : Exec α) (c : SdkCall) : Prop := ∀ w, (x.world w).calls = w.calls ++ [c]

def decode {α : Type} : Except Stop α → Exec α
  | .ok a => pure a
  | .error e => throw e

def call (c : SdkCall) : Exec Unit := modify fun w => { w with calls := w.calls ++ [c] }

/-- `Config::CreateFromFile` hands out a configuration, to a local. -/
def receiveConfig (file : Bytes) : Exec Unit := modify fun w => { w with configs := w.configs ++ [file] }

/-- The SDK hands out an object, if it does. -/
def receive (o : Option SdkObject) : Exec Unit := modify fun w => { w with heap := w.heap ++ o.toList }

/-- The object behind an out-parameter, when the SDK set it. -/
def OutParam.object {R : Type} (mk : R → SdkObject) : OutParam R → Option SdkObject
  | .response r => some (mk r)
  | .untouched | .nullptr => none

/-- `T::Create`: an object, or `NULL` where the SDK cannot make one. -/
def create (made : Bool) (o : SdkObject) : Exec (Option Ptr) :=
  modifyGet fun w => if made then (some w.heap.length, { w with heap := w.heap ++ [o] }) else (none, w)

/-- `delete p`; of `NULL` it does nothing. -/
def delete (p : Option Ptr) : Exec Unit := modify fun w => { w with deleted := w.deleted ++ p.toList }

/-- `efree` of the block of the PHP object. -/
def efree : Exec Unit := modify fun w => { w with efrees := w.efrees + 1 }

/-- The shape of the operations: decode a request, hand it over, take what
the SDK hands out, answer. -/
def invoke {Req Rep : Type} (request : Except Stop Req) (toCall : Req → SdkCall)
    (handedOut : Req → Option SdkObject) (answer : Req → Except Stop Rep) : Exec Rep := do
  let req ← decode request
  call (toCall req)
  receive (handedOut req)
  decode (answer req)

/-! ## Runs of an operation -/

/-- The world after the SDK was handed `c` and handed out `o`. -/
def World.after (w : World) (c : SdkCall) (o : Option SdkObject) : World :=
  { w with calls := w.calls ++ [c], heap := w.heap ++ o.toList }

section Invoke

variable {Req Rep : Type} {request : Except Stop Req} {toCall : Req → SdkCall}
  {handedOut : Req → Option SdkObject} {answer : Req → Except Stop Rep} {w : World}

theorem invoke_stop {e : Stop} (h : request = .error e) :
    (invoke request toCall handedOut answer).run w = .error e w := by
  subst h
  rfl

theorem invoke_ok {req : Req} (h : request = .ok req) :
    (invoke request toCall handedOut answer).run w =
      match answer req with
      | .ok rep => .ok rep (w.after (toCall req) (handedOut req))
      | .error e => .error e (w.after (toCall req) (handedOut req)) := by
  subst h
  simp only [invoke, decode, pure_bind]
  cases answer req <;> rfl

/-- An operation hands the SDK a call exactly when it decodes the request
that call carries. -/
theorem hands_invoke (hinj : Function.Injective toCall) (req : Req) :
    Hands (invoke request toCall handedOut answer) (toCall req) ↔ request = .ok req := by
  constructor
  · intro h
    have hw := h polarisCoreCreateHandler
    cases hr : request with
    | error e => simp [Exec.world, invoke_stop hr, polarisCoreCreateHandler] at hw
    | ok req' =>
      rw [Exec.world, invoke_ok hr] at hw
      have hc : toCall req' = toCall req := by
        cases ha : answer req' <;> simpa [ha, World.after, polarisCoreCreateHandler] using hw
      rw [hinj hc]
  · intro h w
    rw [Exec.world, invoke_ok h]
    cases answer req <;> rfl

end Invoke

end PolarisPhp
