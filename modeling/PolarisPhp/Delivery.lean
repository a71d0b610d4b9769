/-
What the SDK is called with. The calls of a process are those its script
says, each once and in the script's order (`delivered_once`): what an input
sends depends on its arguments and on what was initialised on its object
before, and on nothing else that was called or answered.
-/
import PolarisPhp.Stopping

namespace PolarisPhp

open Classical in
/-- What a call sends, on an object with the APIs `ready`: a constructor its
configuration, an operation its request. -/
noncomputable def MethodCall.sends (z : Zend) (ready : Api → Prop) (c : MethodCall) : List SdkCall :=
  match c.method with
  | .construct => (configured z c.sdk c.args).events
  | .initProvider | .initConsumer | .initLimit => []
  | .operation op =>
    match op.parse z c.args with
    | .success (reqVal, timeout, flowId) =>
      if ready op.needs then (op.serve z c.sdk reqVal timeout flowId).toOption.toList.map Served.call else []
    | .wrongCount | .failure => []

/-- What an input sends, by what was done with its object before. -/
noncomputable def sentBy (z : Zend) : Life (List MethodCall) → Input → List SdkCall
  | .live l, .call c => c.sends z (Initialised · l)
  | _, _ => []

/-- What the inputs of a script send that follow the inputs `past`. -/
noncomputable def delivered (z : Zend) (past : List (Handle × Input)) : List (Handle × Input) → List (Handle × SdkCall)
  | [] => []
  | (h, i) :: is => (sentBy z (history h past) i).map (h, ·) ++ delivered z (past ++ [(h, i)]) is

variable {z : Zend}

theorem events_client (ready : Finset Api) (c : MethodCall) :
    ((clientMachine z).step ready c).events = c.sends z (· ∈ ready) := by
  obtain ⟨sdk, args, m⟩ := c
  cases m with
  | construct | initProvider | initConsumer | initLimit => rfl
  | operation op =>
    simp only [clientMachine, MethodCall.sends]
    cases op.parse z args with
    | wrongCount | failure => rfl
    | success a =>
      dsimp only
      by_cases hr : op.needs ∈ ready
      · rw [if_pos hr, if_pos hr]
        cases op.serve z sdk a.1 a.2.1 a.2.2 <;> rfl
      · rw [if_neg hr, if_neg hr]

/-- The calls of one input are those its history says. -/
theorem events_clients {σ : Handle → Life (Finset Api)} {past : List (Handle × Input)} (hk : KnownAll σ past) (h : Handle)
    (i : Input) : ((clients z).step σ (h, i)).events = (sentBy z (history h past) i).map (h, ·) := by
  have hknown := hk h
  simp only [clients, Machine.family]
  generalize σ h = s at hknown
  generalize history h past = r at hknown
  cases hknown with
  | unborn | released => cases i <;> rfl
  | @live ready l hl =>
    cases i with
    | create | release => rfl
    | call c =>
      have hready : (· ∈ ready) = (Initialised · l) := funext fun a => propext (hl a)
      simp only [Machine.living, sentBy, events_client, hready]

/-- And those of an input of the process. -/
theorem events_process {is : List (Handle × Input)} {p : Process} (hr : (processMachine z).Reaches .start is p)
    (h : Handle) (i : Input) :
    ((processMachine z).step p (h, i)).events = (sentBy z (history h is) i).map (h, ·) := by
  have hsees : Process.start.Sees fun _ => .unborn := fun _ => rfl
  obtain ⟨σ, hσ, hp⟩ := ((process_simulates z).run hsees is).reaches hr
  rw [(process_simulates z p σ (h, i) hp).events]
  exact events_clients (known_of_reaches hσ) h i

theorem delivered_append (past is js : List (Handle × Input)) :
    delivered z past (is ++ js) = delivered z past is ++ delivered z (past ++ is) js := by
  induction is generalizing past with
  | nil => rw [List.nil_append, List.append_nil, delivered, List.nil_append]
  | cons i is ih =>
    rw [List.cons_append, delivered, delivered, ih, List.append_assoc, List.append_assoc, List.singleton_append]

/-- A process that has got through its inputs made the calls they send. -/
theorem events_of_reaches {is : List (Handle × Input)} {p : Process} (hr : (processMachine z).Reaches .start is p) :
    ((processMachine z).run .start is).events = delivered z [] is := by
  induction is using List.reverseRecOn generalizing p with
  | nil => rfl
  | append_singleton is i ih =>
    obtain ⟨p₀, o, hr₀, hs⟩ := Machine.reaches_concat.mp hr
    rw [Machine.run_append hr₀, Machine.run_cons_ok hs, delivered_append, ih hr₀, events_process hr₀]
    rfl

/-- The SDK is called with what the inputs send: with all of it where the
process gets through them, and otherwise up to the input it stops at. -/
structure Delivered (z : Zend) (is : List (Handle × Input)) : Prop where
  through : ∀ p, (processMachine z).Reaches .start is p → ((processMachine z).run .start is).events = delivered z [] is
  stopped : ∀ js i rest p e, is = js ++ i :: rest → (processMachine z).Reaches .start js p →
    ((processMachine z).step p i).result = .error e →
      ((processMachine z).run .start is).events = delivered z [] (js ++ [i])

/-- **No call is lost, made twice or out of order**, in any interleaving. -/
theorem delivered_once (z : Zend) (s : Script) : Delivered z s.inputs := by
  refine ⟨fun p hr => events_of_reaches hr, ?_⟩
  rintro js ⟨h, i⟩ rest p e heq hr hs
  rw [heq, Machine.run_append hr, Machine.run_cons_error hs, delivered_append, events_of_reaches hr, events_process hr,
    delivered, delivered, List.nil_append]
  simp only [List.append_nil]

end PolarisPhp
