/-
Why a process stops. A script stops its process at the first call that is
fatal to it, and the call's arguments, the SDK's answer to it and what was
called on the object before say whether it is and how (`stops_iff`): an
array is read as what it is not, a query succeeds and leaves no response (a
quota succeeds and leaves one), or a constructor gives up. Nothing else a
script can do stops it.
-/
import PolarisPhp.Process
import PolarisPhp.Replies
import PolarisPhp.Safety

namespace PolarisPhp

open Bytes Fallible

/-! ## Fatal calls -/

/-- How a process ends before its script does. -/
inductive Ending where
  /-- a PHP value is read as what it is not -/
  | badRead
  /-- a pointer that the SDK did not set is used -/
  | badPointer
  | exit
  deriving DecidableEq, Repr

def Stop.ending : Stop → Ending
  | .nullKey | .strval | .arrval | .nullZval => .badRead
  | .nullPtr | .uninit => .badPointer
  | .exit => .exit

/-- A call on an object with the APIs `ready` ends the process. -/
inductive MethodCall.Ends (z : Zend) (ready : Api → Prop) : MethodCall → Ending → Prop
  | configuration {sdk args ht} : parseA args = .success (.array ht) → ¬ Decodable z ht →
      Ends z ready ⟨sdk, args, .construct⟩ .badRead
  | request {sdk args op ht timeout flowId} : op.parse z args = .success (.array ht, timeout, flowId) →
      ready op.needs → ¬ op.Reads z ht → Ends z ready ⟨sdk, args, .operation op⟩ .badRead
  | reply {sdk args op ht timeout flowId} : op.parse z args = .success (.array ht, timeout, flowId) →
      ready op.needs → op.Reads z ht → ¬ op.Answered z sdk (.array ht) timeout flowId →
      Ends z ready ⟨sdk, args, .operation op⟩ .badPointer
  | arguments {sdk args} : (∀ arg, parseA args ≠ .success arg) → Ends z ready ⟨sdk, args, .construct⟩ .exit
  | context {sdk args ht} : parseA args = .success (.array ht) → Decodable z ht →
      ¬ (sdk.createFromFile ((decoded z ht).sub Key.configPath) ∧ sdk.createContext) →
      Ends z ready ⟨sdk, args, .construct⟩ .exit

/-- An input, as it changes what was called on an object while it was there. -/
def record : Life (List MethodCall) → Input → Life (List MethodCall)
  | .unborn, .create => .live []
  | .live l, .call c => .live (l ++ [c])
  | .live _, .release => .released
  | l, _ => l

/-- What a script did with `h`. -/
def history (h : Handle) (is : List (Handle × Input)) : Life (List MethodCall) := (logOf h is).foldl record .unborn

/-- After the inputs `is` a call on `h` ends the process. -/
def Fatal (z : Zend) (is : List (Handle × Input)) (h : Handle) (c : MethodCall) (k : Ending) : Prop :=
  ∃ l, history h is = .live l ∧ c.Ends z (Initialised · l) k

/-- No call of the inputs is fatal. -/
def Calm (z : Zend) (is : List (Handle × Input)) : Prop :=
  ∀ js h c rest k, is = js ++ (h, .call c) :: rest → ¬ Fatal z js h c k

theorem history_concat {h k : Handle} {is : List (Handle × Input)} {i : Input} :
    history h (is ++ [(k, i)]) = if k = h then record (history h is) i else history h is := by
  unfold history
  rw [logOf_append, logOf_cons, List.foldl_append]
  split <;> rfl

/-! ## One call -/

theorem ending_of_badRead {e : Stop} (h : e.badRead) : e.ending = .badRead := by
  cases e <;> first | rfl | cases h

theorem Zval.Sound.deref {v : Zval} (h : v.Sound) : v.deref.Sound := by
  induction h with
  | reference _ ih => exact ih
  | null => exact .null
  | bool => exact .bool
  | long => exact .long
  | double => exact .double
  | str => exact .str
  | array hs hv _ => exact .array hs hv
  | object => exact .object
  | resource => exact .resource

theorem parseArray_sound {arg v : Zval} (ha : arg.Sound) (h : parseArray arg = some v) :
    v.Sound ∧ ∃ ht : HashTable, v = .array ht := by
  have hd := ha.deref
  unfold parseArray at h
  split at h
  · rename_i ht he
    rw [he] at hd
    cases h
    exact ⟨hd, ht, rfl⟩
  · cases h

section Parse

variable {args : List Zval} (ha : ∀ arg ∈ args, arg.Sound)
include ha

theorem parseA_sound {v : Zval} (h : parseA args = .success v) :
    v.Sound ∧ ∃ ht : HashTable, v = .array ht := by
  unfold parseA at h
  split at h
  · split at h
    · cases h
      exact parseArray_sound (ha _ (List.mem_singleton_self _)) ‹_›
    · cases h
  · cases h

theorem parse_sound {z : Zend} {op : Operation} {v : Zval} {timeout flowId : UInt64}
    (h : op.parse z args = .success (v, timeout, flowId)) : v.Sound ∧ ∃ ht : HashTable, v = .array ht := by
  cases op with
  | heartbeat | getQuota | updateCallResult | initQuotaWindow =>
    simp only [Operation.parse] at h
    split at h <;> cases h
    exact parseA_sound ha ‹_›
  | register | deregister | initService | getOneInstance | getInstances | getAllInstances | updateServiceCallResult =>
    simp only [Operation.parse, parseALL] at h
    split at h
    · split at h <;> cases h
      exact parseArray_sound (ha _ List.mem_cons_self) ‹_›
    · cases h

end Parse

section Reply

variable {z : Zend} {sdk : Sdk} {reqVal : Zval} {timeout flowId : UInt64} {op : Operation} {s : Served}

theorem answered_of_reply (hs : op.serve z sdk reqVal timeout flowId = .ok s) {rep : HashTable} (hr : s.reply = .ok rep) :
    op.Answered z sdk reqVal timeout flowId := by
  cases op with
  | getOneInstance | getInstances | getAllInstances =>
    obtain ⟨req, hreq, he⟩ := bind_eq_ok.mp hs
    cases he
    exact ⟨req, hreq, (exists_instancesReply sdk _).mp ⟨rep, hr⟩⟩
  | getQuota =>
    obtain ⟨req, hreq, he⟩ := bind_eq_ok.mp hs
    cases he
    exact ⟨req, hreq, (exists_quotaReply sdk _).mp ⟨rep, hr⟩⟩
  | register | deregister | heartbeat | initService | updateServiceCallResult | updateCallResult | initQuotaWindow =>
    exact ⟨s, hs⟩

theorem instancesReply_ending (rv : HashTable) (o : Outcome InstancesResponse) :
    FailsOnly (·.ending = .badPointer) (instancesReply sdk rv o) := by
  unfold instancesReply
  split
  · split
    · exact FailsOnly.ok _
    · exact FailsOnly.error rfl
    · exact FailsOnly.error rfl
  · exact FailsOnly.ok _

theorem quotaReply_ending (rv : HashTable) (o : Outcome QuotaResponse) :
    FailsOnly (·.ending = .badPointer) (quotaReply sdk rv o) := by
  unfold quotaReply
  dsimp only
  split
  · split
    · exact FailsOnly.error rfl
    · exact FailsOnly.ok _
    · exact FailsOnly.error rfl
  · exact FailsOnly.ok _

theorem reply_ending (h : op.serve z sdk reqVal timeout flowId = .ok s) : FailsOnly (·.ending = .badPointer) s.reply := by
  cases op <;> obtain ⟨req, -, hs⟩ := bind_eq_ok.mp h <;> cases hs
  case getOneInstance | getInstances | getAllInstances => exact instancesReply_ending _ _
  case getQuota => exact quotaReply_ending _ _
  all_goals exact FailsOnly.ok _

end Reply

section Step

variable {z : Zend} {ready : Finset Api} {c : MethodCall} (ha : ∀ arg ∈ c.args, arg.Sound)
include ha

theorem ends_of_error {e : Stop} (h : ((clientMachine z).step ready c).result = .error e) :
    c.Ends z (· ∈ ready) e.ending := by
  obtain ⟨sdk, args, m⟩ := c
  cases m with
  | initProvider | initConsumer | initLimit => cases h
  | construct =>
    simp only [clientMachine, configured] at h
    cases hp : parseA args with
    | wrongCount | failure =>
      rw [hp] at h
      cases h
      exact .arguments (by simp [hp])
    | success arg =>
      obtain ⟨hs, ht, rfl⟩ := parseA_sound ha hp
      simp only [hp, zArrvalP_array, bind, Except.bind] at h
      by_cases hd : Decodable z ht
      · simp only [transferToStdMap_ok hs.of_array hd] at h
        split at h <;> cases h
        exact .context hp hd ‹_›
      · obtain ⟨e', hbad, he⟩ := transferToStdMap_error hs.of_array hd
        simp only [he] at h
        cases h
        rw [ending_of_badRead hbad]
        exact .configuration hp hd
  | operation op =>
    simp only [clientMachine] at h
    cases hp : op.parse z args with
    | wrongCount | failure =>
      rw [hp] at h
      cases h
    | success a =>
      obtain ⟨reqVal, timeout, flowId⟩ := a
      obtain ⟨hs, ht, rfl⟩ := parse_sound ha hp
      simp only [hp] at h
      split at h
      · rename_i hready
        cases hserve : op.serve z sdk (.array ht) timeout flowId with
        | error e' =>
          rw [hserve] at h
          cases h
          rw [ending_of_badRead (badRead_serve z sdk _ timeout flowId op e hserve)]
          refine .request hp hready fun hreads => ?_
          obtain ⟨s, hok⟩ := (exists_serve hs sdk timeout flowId op).mpr hreads
          rw [hserve] at hok
          cases hok
        | ok s =>
          simp only [hserve] at h
          cases hreply : s.reply with
          | ok rep =>
            rw [hreply] at h
            cases h
          | error e' =>
            rw [hreply] at h
            cases h
            rw [reply_ending hserve e hreply]
            refine .reply hp hready ((exists_serve hs sdk timeout flowId op).mp ⟨s, hserve⟩) fun hans => ?_
            obtain ⟨s', hs', rep, hrep, -⟩ := exists_reply_iff.mpr hans
            rw [hserve] at hs'
            cases hs'
            rw [hreply] at hrep
            cases hrep
      · cases h

theorem error_of_ends {k : Ending} (h : c.Ends z (· ∈ ready) k) :
    ∃ e, ((clientMachine z).step ready c).result = .error e ∧ e.ending = k := by
  cases h with
  | configuration hp hd =>
    have hs := (parseA_sound ha hp).1
    obtain ⟨e, hbad, he⟩ := transferToStdMap_error hs.of_array hd
    refine ⟨e, ?_, ending_of_badRead hbad⟩
    simp only [clientMachine, configured, hp, zArrvalP_array, bind, Except.bind, he]
  | arguments hp =>
    refine ⟨.exit, ?_, rfl⟩
    simp only [clientMachine, configured]
    split
    · rfl
    · rfl
    · exact absurd ‹_› (hp _)
  | context hp hd hno =>
    have hs := (parseA_sound ha hp).1
    refine ⟨.exit, ?_, rfl⟩
    simp only [clientMachine, configured, hp, zArrvalP_array, bind, Except.bind, transferToStdMap_ok hs.of_array hd]
    exact if_neg hno
  | @request sdk args op ht timeout flowId hp hready hreads =>
    have hs := (parse_sound ha hp).1
    cases hserve : op.serve z sdk (.array ht) timeout flowId with
    | ok s => exact absurd ((exists_serve hs sdk timeout flowId op).mp ⟨s, hserve⟩) hreads
    | error e =>
      refine ⟨e, ?_, ending_of_badRead (badRead_serve z sdk _ timeout flowId op e hserve)⟩
      simp only [clientMachine, hp, if_pos hready, hserve]
  | @reply sdk args op ht timeout flowId hp hready hreads hans =>
    have hs := (parse_sound ha hp).1
    obtain ⟨s, hserve⟩ := (exists_serve hs sdk timeout flowId op).mpr hreads
    cases hreply : s.reply with
    | ok rep => exact absurd (answered_of_reply hserve hreply) hans
    | error e =>
      refine ⟨e, ?_, reply_ending hserve e hreply⟩
      simp only [clientMachine, hp, if_pos hready, hserve, hreply]
      rfl

end Step

/-! ## Runs -/

/-- A client that has what was initialised on it. -/
inductive Known : Life (Finset Api) → Life (List MethodCall) → Prop
  | unborn : Known .unborn .unborn
  | live {ready l} : (∀ a, a ∈ ready ↔ Initialised a l) → Known (.live ready) (.live l)
  | released : Known .released .released

theorem Known.step {z : Zend} {s s' : Life (Finset Api)} {r : Life (List MethodCall)} {i : Input} {o : Option Zval}
    (hk : Known s r) (hs : (((clientMachine z).living ∅).step s i).result = .ok (s', o)) : Known s' (record r i) := by
  cases hk with
  | unborn =>
    cases i with
    | create =>
      cases hs
      exact .live fun a => by simp [Initialised]
    | call c =>
      cases hs
      exact .unborn
    | release =>
      cases hs
      exact .unborn
  | released => cases i <;> cases hs <;> exact .released
  | @live ready l hl =>
    cases i with
    | create =>
      cases hs
      exact .live hl
    | release =>
      cases hs
      exact .released
    | call c =>
      simp only [Machine.living] at hs
      cases hc : ((clientMachine z).step ready c).result with
      | error e =>
        rw [hc] at hs
        cases hs
      | ok p =>
        obtain ⟨ready', v⟩ := p
        rw [hc] at hs
        cases hs
        refine .live fun a => ?_
        rw [mem_of_client_step hc, hl, initialised_concat]

/-- All clients have what was initialised on them by the inputs `is`. -/
def KnownAll (σ : Handle → Life (Finset Api)) (is : List (Handle × Input)) : Prop := ∀ h, Known (σ h) (history h is)

theorem knownAll_nil : KnownAll (fun _ => .unborn) [] := fun _ => .unborn

theorem KnownAll.step {z : Zend} {σ σ' : Handle → Life (Finset Api)} {is : List (Handle × Input)} {i : Handle × Input}
    {o : Handle × Option Zval} (hk : KnownAll σ is) (hs : ((clients z).step σ i).result = .ok (σ', o)) :
    KnownAll σ' (is ++ [i]) := by
  intro k
  obtain ⟨j, i⟩ := i
  simp only [clients, Machine.family] at hs
  rw [history_concat]
  cases hstep : (((clientMachine z).living ∅).step (σ j) i).result with
  | error e =>
    rw [hstep] at hs
    cases hs
  | ok p =>
    rw [hstep] at hs
    cases hs
    split
    · rename_i hj
      subst hj
      rw [Function.update_self]
      exact (hk j).step hstep
    · rename_i hj
      rw [Function.update_of_ne (Ne.symm hj)]
      exact hk k

theorem known_of_reaches {z : Zend} {is : List (Handle × Input)} {σ : Handle → Life (Finset Api)}
    (h : (clients z).Reaches (fun _ => .unborn) is σ) : KnownAll σ is := by
  induction is using List.reverseRecOn generalizing σ with
  | nil =>
    obtain rfl := Machine.reaches_nil.mp h
    exact knownAll_nil
  | append_singleton is i ih =>
    obtain ⟨σ₀, o, hr, hs⟩ := Machine.reaches_concat.mp h
    exact (ih hr).step hs

/-- The arguments of the calls are values that PHP can build. -/
def SoundInputs (is : List (Handle × Input)) : Prop := ∀ h c, (h, .call c) ∈ is → ∀ arg ∈ c.args, arg.Sound

theorem SoundInputs.left {is js : List (Handle × Input)} (h : SoundInputs (is ++ js)) : SoundInputs is :=
  fun k c hc => h k c (List.mem_append_left js hc)

/-- An input stops the clients exactly where it is a fatal call. -/
theorem fatal_iff {z : Zend} {is : List (Handle × Input)} {σ : Handle → Life (Finset Api)} {h : Handle} {i : Input}
    {k : Ending} (ha : ∀ c, i = .call c → ∀ arg ∈ c.args, arg.Sound)
    (hr : (clients z).Reaches (fun _ => .unborn) is σ) :
    (∃ e, ((clients z).step σ (h, i)).result = .error e ∧ e.ending = k) ↔ ∃ c, i = .call c ∧ Fatal z is h c k := by
  have hknown := known_of_reaches hr h
  have hstep : ∀ e, ((clients z).step σ (h, i)).result = .error e ↔
      (((clientMachine z).living ∅).step (σ h) i).result = .error e := by
    intro e
    simp only [clients, Machine.family]
    cases (((clientMachine z).living ∅).step (σ h) i).result <;> simp
  simp only [hstep, Fatal]
  generalize σ h = s at hknown
  generalize history h is = r at hknown
  cases hknown with
  | unborn | released => cases i <;> simp [Machine.living]
  | @live ready l hl =>
    have hready : (· ∈ ready) = (Initialised · l) := funext fun a => propext (hl a)
    cases i with
    | create | release => simp [Machine.living]
    | call c =>
      have ha := ha c rfl
      simp only [LifeInput.call.injEq, Life.live.injEq, exists_eq_left', ← hready]
      constructor
      · rintro ⟨e, he, rfl⟩
        refine ends_of_error ha ?_
        simp only [Machine.living] at he
        cases hc : ((clientMachine z).step ready c).result with
        | error e' =>
          rw [hc] at he
          cases he
          rfl
        | ok p =>
          rw [hc] at he
          cases he
      · intro hends
        obtain ⟨e, he, hk⟩ := error_of_ends ha hends
        refine ⟨e, ?_, hk⟩
        simp only [Machine.living, he]
        rfl

/-- The clients get through exactly the inputs without a fatal call. -/
theorem calm_iff {z : Zend} {is : List (Handle × Input)} (hi : SoundInputs is) :
    Calm z is ↔ ∃ σ, (clients z).Reaches (fun _ => .unborn) is σ := by
  constructor
  · intro hcalm
    cases hr : ((clients z).run (fun _ => .unborn) is).result with
    | ok σ => exact ⟨σ, hr⟩
    | error e =>
      obtain ⟨js, ⟨h, i⟩, rest, σ, rfl, hjs, hs⟩ := Machine.run_error_iff.mp hr
      obtain ⟨c, rfl, hf⟩ := (fatal_iff (fun c hc => hi h c (by simp [hc])) hjs).mp ⟨e, hs, rfl⟩
      exact absurd hf (hcalm js h c rest _ rfl)
  · rintro ⟨σ, hr⟩ js h c rest k rfl hf
    obtain ⟨σ₁, hjs, hrest⟩ := Machine.reaches_append.mp hr
    obtain ⟨σ₂, o, hs, -⟩ := Machine.reaches_cons.mp hrest
    have ha : ∀ c', (.call c : Input) = .call c' → ∀ arg ∈ c'.args, arg.Sound := fun c' hc => hi h c' (by simp [hc])
    obtain ⟨e, he, -⟩ := (fatal_iff ha hjs).mpr ⟨c, rfl, hf⟩
    rw [hs] at he
    cases he

/-- **A process stops at the first fatal call of its script**, and as that call
makes it; without one it does not stop. -/
theorem stops_iff {z : Zend} {s : Script} (hi : SoundInputs s.inputs) (k : Ending) :
    (∃ e, ((processMachine z).run .start s.inputs).result = .error e ∧ e.ending = k) ↔
      ∃ js h c rest, s.inputs = js ++ (h, .call c) :: rest ∧ Calm z js ∧ Fatal z js h c k := by
  have hsees : Process.start.Sees fun _ => .unborn := fun _ => rfl
  have hrun := (process_simulates z).run hsees s.inputs
  simp only [hrun.error_iff]
  constructor
  · rintro ⟨e, he, rfl⟩
    obtain ⟨js, ⟨h, i⟩, rest, σ, heq, hjs, hs⟩ := Machine.run_error_iff.mp he
    rw [heq] at hi
    obtain ⟨c, rfl, hf⟩ := (fatal_iff (fun c hc => hi h c (by simp [hc])) hjs).mp ⟨e, hs, rfl⟩
    exact ⟨js, h, c, rest, heq, (calm_iff hi.left).mpr ⟨σ, hjs⟩, hf⟩
  · rintro ⟨js, h, c, rest, heq, hcalm, hf⟩
    rw [heq] at hi ⊢
    obtain ⟨σ, hjs⟩ := (calm_iff hi.left).mp hcalm
    have ha : ∀ c', (.call c : Input) = .call c' → ∀ arg ∈ c'.args, arg.Sound := fun c' hc => hi h c' (by simp [hc])
    obtain ⟨e, he, hk⟩ := (fatal_iff ha hjs).mpr ⟨c, rfl, hf⟩
    exact ⟨e, Machine.run_error_iff.mpr ⟨js, (h, .call c), rest, σ, rfl, hjs, he⟩, hk⟩

/-- A client that asks for a quota. -/
def askQuota : Script where
  inputs := [(0, .create), (0, .call newClient), (0, .call ⟨Sdk.idle, [], .initLimit⟩),
    (0, .call ⟨grantingSdk, [.array Table.empty], .operation .getQuota⟩), (0, .release)]
  orderly := by simp

/-- The quota is granted, and that is the end. -/
theorem stops_granted : ∃ js h c rest, askQuota.inputs = js ++ (h, .call c) :: rest ∧
    Calm (Zend.reading .withoutNul none) js ∧ Fatal (Zend.reading .withoutNul none) js h c .badPointer := by
  refine (stops_iff ?_ .badPointer).mp ⟨.uninit, rfl, rfl⟩
  intro h c hc
  simp only [askQuota, List.mem_cons, Prod.mk.injEq, reduceCtorEq, and_false, LifeInput.call.injEq, false_or,
    List.not_mem_nil, or_false] at hc
  rcases hc with ⟨-, rfl⟩ | ⟨-, rfl⟩ | ⟨-, rfl⟩ <;> intro arg harg
  · rw [List.mem_singleton.mp harg]
    exact sound_arrayLiteral_str (by simp)
  · cases harg
  · rw [List.mem_singleton.mp harg]
    exact .array Table.sound_empty fun _ _ h => by cases h

end PolarisPhp
