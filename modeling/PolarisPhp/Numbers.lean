/-
The numbers of a request. Each entry is a decimal string that passes through
`atoi` or `atol` and is converted to the type of its setter's parameter. No
step of that can fail: what a setter receives is the number cut at the end of
`long`, and of that its remainder for the narrower types
(`number_converted`). So a number is exact or rejected just when it is below
that range or the array cannot be read (`exactOrRejected_iff`). The 64-bit
numbers the SDK issues go out and come back through two conversions that undo
each other (`issued_survives`).
-/
import PolarisPhp.Instances
import PolarisPhp.Safety

namespace PolarisPhp

open Bytes Decimal Fallible

/-! ## Conversions -/

/-- The parameter types of the SDK's setters of numbers. -/
inductive NumType where
  | int
  | uint32
  | uint64
  deriving DecidableEq, Repr

namespace NumType

/-- The natural numbers of the type are those below. -/
def bound : NumType → Nat
  | .int => 2 ^ 31
  | .uint32 => 2 ^ 32
  | .uint64 => 2 ^ 64

/-- How an entry becomes a parameter of the type. -/
def convert : NumType → Bytes → Int
  | .int, s => (atoi s).toInt
  | .uint32, s => (atoi s).toUInt32.toNat
  | .uint64, s => (atol s).toUInt64.toNat

/-- What becomes of a natural number on the way. -/
def received : NumType → Nat → Int
  | .int, n => (clampLong n : Int).bmod (2 ^ 32)
  | .uint32, n => (clampLong n % 2 ^ 32 : Nat)
  | .uint64, n => clampLong n

/-- The numbers that come through are those below. -/
def exactBelow : NumType → Nat
  | .int => 2 ^ 31
  | .uint32 => 2 ^ 32
  | .uint64 => 2 ^ 63

theorem convert_spell (ty : NumType) (n : Nat) : ty.convert (spell n) = ty.received n := by
  cases ty with
  | int => exact toInt_atoi_spell_nat n
  | uint32 => exact congrArg Nat.cast (toNat_atoi_spell n)
  | uint64 => exact congrArg Nat.cast (toNat_atol_spell n)

theorem received_eq_iff {ty : NumType} {n : Nat} : ty.received n = n ↔ n < ty.exactBelow := by
  have hc : clampLong n = min n (2 ^ 63 - 1) := rfl
  unfold received exactBelow
  cases ty with
  | int =>
    dsimp only
    rw [Int.bmod_def]
    split <;> omega
  | uint32 =>
    dsimp only
    omega
  | uint64 =>
    dsimp only
    omega

theorem exactBelow_pos (ty : NumType) : 0 < ty.exactBelow := by cases ty <;> decide

end NumType

/-! ## The numeric entries -/

/-- The numeric entries of each operation's request. -/
def Operation.numeric : Operation → List (Bytes × NumType)
  | .register => [(Key.port, .int), (Key.weight, .int), (Key.priority, .int), (Key.ttl, .int)]
  | .deregister | .heartbeat => [(Key.port, .int)]
  | .initService | .getOneInstance =>
    [(Key.hashKey, .uint64), (Key.replicateIndex, .int), (Key.backupInstanceNum, .uint32)]
  | .getInstances | .getAllInstances => []
  | .updateServiceCallResult =>
    [(Key.port, .int), (Key.delay, .uint64), (Key.localityAwareInfo, .uint64), (Key.callRetCode, .int)]
  | .getQuota | .initQuotaWindow => [(Key.amount, .int)]
  | .updateCallResult => [(Key.callResponseTime, .uint64), (Key.callResponseCode, .int)]

/-- What the setters of numbers received for a call, each under its entry's name. -/
def SdkCall.numbers : SdkCall → List (Bytes × Int)
  | .register req => [(Key.port, req.port.toInt), (Key.weight, req.weight.toInt), (Key.priority, req.priority.toInt),
      (Key.ttl, req.ttl.toInt)]
  | .deregister req => [(Key.port, req.port.toInt)]
  | .heartbeat req => [(Key.port, req.port.toInt)]
  | .initService req | .getOneInstance req => [(Key.hashKey, req.hashKey.toNat),
      (Key.replicateIndex, req.replicateIndex.toInt), (Key.backupInstanceNum, req.backupInstanceNum.toNat)]
  | .updateServiceCallResult req => [(Key.port, req.port.toInt), (Key.delay, req.delay.toNat),
      (Key.localityAwareInfo, req.localityAwareInfo.toNat), (Key.callRetCode, req.retCode.toInt)]
  | .getQuota req | .initQuotaWindow req => [(Key.amount, req.acquireAmount.toInt)]
  | .updateCallResult req => [(Key.callResponseTime, req.responseTime.toNat),
      (Key.callResponseCode, req.responseCode.toInt)]
  | .setLogDir _ | .createFromFile _ | .getInstances _ | .getAllInstances _ => []

/-- What a setter receives of the entries read. -/
def readNumber (params : StdMap) (p : Bytes × NumType) : Int :=
  -- without a health check there is no ttl
  if p.1 = Key.ttl ∧ isTrue (params.sub Key.heartbeatFlag) = false then 0
  -- an empty amount is one
  else if p.1 = Key.amount ∧ params.sub p.1 = [] then 1
  else p.2.convert (params.sub p.1)

theorem readNumber_plain {params : StdMap} {p : Bytes × NumType} (ht : p.1 ≠ Key.ttl) (ha : p.1 ≠ Key.amount) :
    readNumber params p = p.2.convert (params.sub p.1) := by
  simp [readNumber, ht, ha]

/-- Entries that are neither a ttl nor an amount are converted as they are. -/
theorem map_readNumber {params : StdMap} {l : List (Bytes × NumType)}
    (h : ∀ p ∈ l, p.1 ≠ Key.ttl ∧ p.1 ≠ Key.amount) :
    l.map (fun p => (p.1, readNumber params p)) = l.map fun p => (p.1, p.2.convert (params.sub p.1)) :=
  List.map_congr_left fun p hp => by rw [readNumber_plain (h p hp).1 (h p hp).2]

theorem readNumber_ttl (params : StdMap) : readNumber params (Key.ttl, .int) =
    (if isTrue (params.sub Key.heartbeatFlag) then atoi (params.sub Key.ttl) else 0).toInt := by
  have hne : Key.ttl ≠ Key.amount := by decide
  cases h : isTrue (params.sub Key.heartbeatFlag) with
  | true => simp [readNumber, h, hne, NumType.convert]
  | false => simp [readNumber, h]

theorem readNumber_amount (params : StdMap) : readNumber params (Key.amount, .int) =
    (atoi (if params.sub Key.amount = [] then lit "1" else params.sub Key.amount)).toInt := by
  have hne : Key.amount ≠ Key.ttl := by decide
  have hone : (atoi (lit "1")).toInt = 1 := by decide
  by_cases h : params.sub Key.amount = []
  · simp [readNumber, hne, h, hone]
  · simp [readNumber, hne, h, NumType.convert]

section Serve

variable {z : Zend} {sdk : Sdk} {ht : HashTable} {timeout flowId : UInt64} {op : Operation} {s : Served}

/-- The numbers of a call are those read from the entries. -/
theorem numbers_serve (hs : Zval.Sound (.array ht)) (h : op.serve z sdk (.array ht) timeout flowId = .ok s) :
    s.call.numbers = op.numeric.map fun p => (p.1, readNumber (decoded z ht) p) := by
  cases op with
  | register =>
    simp only [Operation.serve, bind_eq_ok, pure_eq_ok, registerRequest_eq_ok hs] at h
    obtain ⟨_, ⟨-, m, -, rfl⟩, rfl⟩ := h
    have hp : ∀ p ∈ [(Key.port, NumType.int), (Key.weight, .int), (Key.priority, .int)],
        p.1 ≠ Key.ttl ∧ p.1 ≠ Key.amount := by decide
    have hmap := @map_readNumber (decoded z ht) _ hp
    simp only [List.map_cons, List.map_nil, List.cons.injEq, Prod.mk.injEq, true_and, and_true] at hmap
    simp only [Operation.numeric, List.map_cons, List.map_nil, hmap, readNumber_ttl]
    rfl
  | deregister =>
    simp only [Operation.serve, bind_eq_ok, pure_eq_ok, deregisterRequest_eq_ok hs] at h
    obtain ⟨_, ⟨-, rfl⟩, rfl⟩ := h
    rw [map_readNumber (by decide)]
    rfl
  | heartbeat =>
    simp only [Operation.serve, bind_eq_ok, pure_eq_ok, heartbeatRequest_eq_ok hs] at h
    obtain ⟨_, ⟨-, rfl⟩, rfl⟩ := h
    rw [map_readNumber (by decide)]
    rfl
  | initService =>
    simp only [Operation.serve, bind_eq_ok, pure_eq_ok, initServiceRequest_eq_ok hs] at h
    obtain ⟨_, ⟨-, m, l, src, -, -, -, rfl⟩, rfl⟩ := h
    rw [map_readNumber (by decide)]
    rfl
  | getOneInstance =>
    simp only [Operation.serve, bind_eq_ok, pure_eq_ok, getOneInstanceRequest_eq_ok hs] at h
    obtain ⟨_, ⟨-, m, l, src, -, -, -, rfl⟩, rfl⟩ := h
    rw [map_readNumber (by decide)]
    rfl
  | getInstances | getAllInstances =>
    obtain ⟨_, -, hc⟩ := bind_eq_ok.mp h
    cases hc
    rfl
  | updateServiceCallResult =>
    simp only [Operation.serve, bind_eq_ok, pure_eq_ok, serviceCallResult_eq_ok hs] at h
    obtain ⟨_, ⟨-, sub, l, -, -, hsrc⟩, rfl⟩ := h
    rw [map_readNumber (by decide)]
    rcases hsrc with ⟨-, rfl⟩ | ⟨src, -, -, rfl⟩
    · rfl
    · rfl
  | getQuota | initQuotaWindow =>
    simp only [Operation.serve, bind_eq_ok, pure_eq_ok, convertToQuotaRequest_eq_ok hs] at h
    obtain ⟨_, ⟨-, l, sub, -, -, rfl⟩, rfl⟩ := h
    simp only [Operation.numeric, List.map_cons, List.map_nil, readNumber_amount]
    rfl
  | updateCallResult =>
    simp only [Operation.serve, bind_eq_ok, pure_eq_ok, limitCallResult_eq_ok hs] at h
    obtain ⟨_, ⟨-, l, sub, -, -, rfl⟩, rfl⟩ := h
    rw [map_readNumber (by decide)]
    rfl

end Serve

/-- The array gives the string `s` under `k`: an entry, and no other name
that a reader of C strings takes for `k`. -/
structure Gives (ht : HashTable) (k s : Bytes) : Prop where
  entry : ht.find? (.name k) = some (.str s)
  only : ∀ n v, (ZKey.name n, v) ∈ ht.live → cstr n = k → n = k

/-- What the array gives is what is read. -/
theorem Gives.sub_decoded {z : Zend} {ht : HashTable} {k s : Bytes} (h : Gives ht k s) (hk : NulFree k)
    (hd : Decodable z ht) : (decoded z ht).sub k = cstr s := by
  have hread : (decoded z ht)[k]? = (ht.find? (.name k)).map (readVal z) := by
    refine getElem?_decoded_eq fun b hb => ?_
    obtain ⟨key, v⟩ := b
    obtain ⟨⟨n, rfl⟩, -⟩ := hd _ hb
    have hn : cstr n = k ↔ n = k := ⟨h.only n v hb, fun he => he ▸ hk.cstr⟩
    simp [readBucket, hn]
  rw [StdMap.sub_eq, hread, h.entry]
  rfl

/-- Among names without a NUL there is no other to take for `k`. -/
theorem NamesNulFree.gives {ht : HashTable} (h : NamesNulFree ht) {k s : Bytes}
    (hf : ht.find? (.name k) = some (.str s)) : Gives ht k s := by
  refine ⟨hf, fun n v hb hn => ?_⟩
  obtain ⟨n', he, hn'⟩ := h _ hb
  cases he
  rw [← hn, hn'.cstr]

/-! ## Numbers handed over -/

section Numbers

variable {z : Zend} {sdk : Sdk} {ht : HashTable} {args : List Zval} {timeout flowId : UInt64} {op : Operation}
  {key : Bytes} {ty : NumType}

theorem nodup_numeric (op : Operation) : (op.numeric.map Prod.fst).Nodup := by cases op <;> decide

/-- A numeric entry's setter receives what is read from the entry. -/
theorem sends_number_iff (hs : Zval.Sound (.array ht)) (hp : op.parse z args = .success (.array ht, timeout, flowId))
    (hk : (key, ty) ∈ op.numeric) {x : Int} :
    op.Sends z sdk args (fun c => (key, x) ∈ c.numbers) ↔
      op.Reads z ht ∧ x = readNumber (decoded z ht) (key, ty) := by
  rw [sends_iff hp, ← exists_serve hs sdk timeout flowId]
  have hmem : ∀ {s}, op.serve z sdk (.array ht) timeout flowId = .ok s →
      ((key, x) ∈ s.call.numbers ↔ x = readNumber (decoded z ht) (key, ty)) := by
    intro s h
    rw [numbers_serve hs h, List.mem_map]
    refine ⟨fun hx => ?_, fun hx => ⟨(key, ty), hk, by rw [hx]⟩⟩
    obtain ⟨p, hp, he⟩ := hx
    simp only [Prod.mk.injEq] at he
    have hpk : p = (key, ty) := List.inj_on_of_nodup_map (nodup_numeric op) hp hk he.1
    rw [← he.2, hpk]
  refine ⟨fun h => ?_, fun h => ?_⟩
  · obtain ⟨s, h, hx⟩ := h
    exact ⟨⟨s, h⟩, (hmem h).mp hx⟩
  · obtain ⟨⟨s, h⟩, hx⟩ := h
    exact ⟨s, h, (hmem h).mpr hx⟩

/-- What the setter of a spelled number receives: without a health check no
ttl, and otherwise what becomes of the number on the way. -/
def readSpelled (z : Zend) (ht : HashTable) (key : Bytes) (ty : NumType) (n : Nat) : Int :=
  if key = Key.ttl ∧ isTrue ((decoded z ht).sub Key.heartbeatFlag) = false then 0 else ty.received n

theorem nulFree_numeric {op : Operation} (hk : (key, ty) ∈ op.numeric) : NulFree key := by
  have hall : ∀ p ∈ op.numeric, NulFree p.1 := by cases op <;> decide
  exact hall _ hk

theorem readNumber_spell {n : Nat} (hk : (key, ty) ∈ op.numeric) (hg : Gives ht key (spell n)) (hd : Decodable z ht) :
    readNumber (decoded z ht) (key, ty) = readSpelled z ht key ty n := by
  have hne : spell n ≠ [] := by
    simp only [spell, Int.natAbs_natCast]
    split
    · exact List.cons_ne_nil _ _
    · exact spellNat_ne_nil n
  have hsub : (decoded z ht).sub key = spell n := by
    rw [hg.sub_decoded (nulFree_numeric hk) hd, (nulFree_spell _).cstr]
  simp only [readNumber, readSpelled, hsub, hne, and_false, if_false, NumType.convert_spell]

/-- What the setter of a spelled number receives, whatever the number. -/
theorem sends_readSpelled (hs : Zval.Sound (.array ht)) (hp : op.parse z args = .success (.array ht, timeout, flowId))
    (hk : (key, ty) ∈ op.numeric) {n : Nat} (hg : Gives ht key (spell n)) (hr : op.Reads z ht) {x : Int} :
    op.Sends z sdk args (fun c => (key, x) ∈ c.numbers) ↔ x = readSpelled z ht key ty n := by
  rw [sends_number_iff hs hp hk, readNumber_spell hk hg hr.decodable]
  exact and_iff_right hr

/-- Two numbers reach a 64-bit setter as one only at the end of `long` or beyond. -/
theorem readSpelled_uint64_eq_iff {ht' : HashTable} (hk : (key, NumType.uint64) ∈ op.numeric) {m n : Nat} :
    readSpelled z ht key .uint64 m = readSpelled z ht' key .uint64 n ↔
      m = n ∨ 2 ^ 63 - 1 ≤ m ∧ 2 ^ 63 - 1 ≤ n := by
  have httl : ∀ p ∈ op.numeric, p.2 = .uint64 → p.1 ≠ Key.ttl := by cases op <;> decide
  have hne : key ≠ Key.ttl := httl _ hk rfl
  have hr : ∀ k, NumType.uint64.received k = (clampLong k : Int) := fun _ => rfl
  simp only [readSpelled, hne, false_and, if_false, hr, Nat.cast_inj]
  exact clampLong_eq_iff

end Numbers

/-! ## Exact or rejected -/

/-- The setter of `key` receives `n` where its type holds `n`, and the SDK is
not called otherwise. -/
def ExactOrRejected (z : Zend) (sdk : Sdk) (args : List Zval) (op : Operation) (key : Bytes) (ty : NumType) (n : Nat) :
    Prop :=
  (n < ty.bound → op.Sends z sdk args fun c => (key, (n : Int)) ∈ c.numbers) ∧
    (¬ n < ty.bound → op.SendsNothing z sdk args)

/-- Where it is so: a number the type holds is below the range of `long`, in
an array that can be read, and a ttl that of a health check or zero; a number
the type does not hold stands in an array that cannot be read. -/
structure NumberKept (z : Zend) (ht : HashTable) (op : Operation) (key : Bytes) (ty : NumType) (n : Nat) : Prop where
  reads : op.Reads z ht ↔ n < ty.bound
  exact : n < ty.bound → n < ty.exactBelow
  ttl : key = Key.ttl → n < ty.bound → isTrue ((decoded z ht).sub Key.heartbeatFlag) ∨ n = 0

theorem readSpelled_eq_iff {z : Zend} {ht : HashTable} {key : Bytes} {ty : NumType} {n : Nat} :
    (n : Int) = readSpelled z ht key ty n ↔
      n < ty.exactBelow ∧ (key = Key.ttl → isTrue ((decoded z ht).sub Key.heartbeatFlag) ∨ n = 0) := by
  have hpos := ty.exactBelow_pos
  unfold readSpelled
  split
  · rename_i h
    obtain ⟨hk, hf⟩ := h
    simp only [hk, hf, Bool.false_eq_true, false_or, true_imp_iff]
    omega
  · rename_i h
    have httl : key = Key.ttl → isTrue ((decoded z ht).sub Key.heartbeatFlag) ∨ n = 0 := by
      intro hk
      cases hf : isTrue ((decoded z ht).sub Key.heartbeatFlag) with
      | true => exact .inl rfl
      | false => exact absurd ⟨hk, hf⟩ h
    rw [eq_comm, NumType.received_eq_iff]
    exact ⟨fun hn => ⟨hn, httl⟩, fun hn => hn.1⟩

section ExactOrRejected

variable {z : Zend} {sdk : Sdk} {ht : HashTable} {args : List Zval} {timeout flowId : UInt64} {op : Operation}
  {key : Bytes} {ty : NumType} {n : Nat} (hs : Zval.Sound (.array ht))
  (hp : op.parse z args = .success (.array ht, timeout, flowId))
include hs hp

theorem sends_spelled_iff (hk : (key, ty) ∈ op.numeric) (hg : Gives ht key (spell n)) :
    op.Sends z sdk args (fun c => (key, (n : Int)) ∈ c.numbers) ↔ op.Reads z ht ∧ n < ty.exactBelow ∧
      (key = Key.ttl → isTrue ((decoded z ht).sub Key.heartbeatFlag) ∨ n = 0) := by
  refine ⟨fun h => ?_, fun h => ?_⟩
  · have hr : op.Reads z ht := ((sends_number_iff hs hp hk).mp h).1
    exact ⟨hr, readSpelled_eq_iff.mp ((sends_readSpelled hs hp hk hg hr).mp h)⟩
  · obtain ⟨hr, hn⟩ := h
    exact (sends_readSpelled hs hp hk hg hr).mpr (readSpelled_eq_iff.mpr hn)

theorem sendsNothing_iff_not_reads : op.SendsNothing z sdk args ↔ ¬ op.Reads z ht := by
  rw [sendsNothing_iff hp, exists_serve hs]

end ExactOrRejected

/-- A number is exact or rejected just where it is below the range it is
parsed in: no number is ever rejected for its size. -/
theorem exactOrRejected_iff (z : Zend) (sdk : Sdk) {ht : HashTable} (hs : Zval.Sound (.array ht)) {args : List Zval}
    {timeout flowId : UInt64} {op : Operation} (hp : op.parse z args = .success (.array ht, timeout, flowId))
    {key : Bytes} {ty : NumType} (hk : (key, ty) ∈ op.numeric) {n : Nat} (hg : Gives ht key (spell n)) :
    ExactOrRejected z sdk args op key ty n ↔ NumberKept z ht op key ty n := by
  unfold ExactOrRejected
  rw [sends_spelled_iff hs hp hk hg, sendsNothing_iff_not_reads hs hp]
  by_cases hb : n < ty.bound
  · refine ⟨fun h => ?_, fun h => ?_⟩
    · obtain ⟨hr, hn, httl⟩ := h.1 hb
      exact ⟨iff_of_true hr hb, fun _ => hn, fun hk _ => httl hk⟩
    · exact ⟨fun _ => ⟨h.reads.mpr hb, h.exact hb, fun hk => h.ttl hk hb⟩, fun hn => absurd hb hn⟩
  · refine ⟨fun h => ?_, fun h => ?_⟩
    · exact ⟨iff_of_false (h.2 hb) hb, fun hn => absurd hn hb, fun _ hn => absurd hn hb⟩
    · exact ⟨fun hn => absurd hn hb, fun _ hr => hb (h.reads.mp hr)⟩

/-! ## Converted -/

/-- What becomes of a spelled number: the setter of `key` receives what the
conversion makes of it, whenever the array can be read; it is the number
itself just below the range of the conversion, for a ttl that of a health
check or zero. -/
structure NumberConverted (z : Zend) (sdk : Sdk) (args : List Zval) (ht : HashTable) (op : Operation) (key : Bytes)
    (ty : NumType) (n : Nat) : Prop where
  handed : op.Reads z ht → op.Sends z sdk args fun c => (key, readSpelled z ht key ty n) ∈ c.numbers
  unread : ¬ op.Reads z ht → op.SendsNothing z sdk args
  exact : readSpelled z ht key ty n = n ↔
    n < ty.exactBelow ∧ (key = Key.ttl → isTrue ((decoded z ht).sub Key.heartbeatFlag) ∨ n = 0)

/-- **A number is converted, never rejected.** -/
theorem number_converted (z : Zend) (sdk : Sdk) {ht : HashTable} (hs : Zval.Sound (.array ht)) {args : List Zval}
    {timeout flowId : UInt64} {op : Operation} (hp : op.parse z args = .success (.array ht, timeout, flowId))
    {key : Bytes} {ty : NumType} (hk : (key, ty) ∈ op.numeric) {n : Nat} (hg : Gives ht key (spell n)) :
    NumberConverted z sdk args ht op key ty n where
  handed := fun hr => (sends_readSpelled hs hp hk hg hr).mpr rfl
  unread := (sendsNothing_iff_not_reads hs hp).mpr
  exact := eq_comm.trans readSpelled_eq_iff

/-- A request for a quota of `n`. -/
def quotaOf (n : Nat) : HashTable := arrayLiteral [(Key.service, .str (lit "cart")), (Key.amount, .str (spell n))]

section QuotaOf

variable (n : Nat)

theorem sound_quotaOf : Zval.Sound (.array (quotaOf n)) := sound_arrayLiteral_str (by simp)

theorem namesNulFree_quotaOf : NamesNulFree (quotaOf n) :=
  namesNulFree_arrayLiteral [Key.service, Key.amount] rfl (by decide) (by decide)

theorem gives_quotaOf : Gives (quotaOf n) Key.amount (spell n) :=
  (namesNulFree_quotaOf n).gives (find?_arrayLiteral [Key.service, Key.amount] rfl (by decide) (by simp))

theorem reads_quotaOf : Operation.getQuota.Reads (Zend.reading .withoutNul none) (quotaOf n) := by
  have hstr : Strings (quotaOf n) := strings_arrayLiteral [Key.service, Key.amount] rfl (by decide) (by simp)
  exact hstr.reads (namesNulFree_quotaOf n) rfl .getQuota

end QuotaOf

/-- A quota of `2 ^ 32` is not rejected. -/
theorem exactOrRejected_quota :
    ¬ ∀ (z : Zend) (sdk : Sdk) (ht : HashTable) (args : List Zval) (timeout flowId : UInt64) (op : Operation)
      (key : Bytes) (ty : NumType) (n : Nat), Zval.Sound (.array ht) →
        op.parse z args = .success (.array ht, timeout, flowId) → (key, ty) ∈ op.numeric → Gives ht key (spell n) →
          ExactOrRejected z sdk args op key ty n := by
  intro h
  have he := h (Zend.reading .withoutNul none) Sdk.idle (quotaOf 4294967296) [.array (quotaOf 4294967296)] 0 0
    .getQuota Key.amount .int 4294967296 (sound_quotaOf _) rfl (by decide) (gives_quotaOf _)
  have hno := (sendsNothing_iff_not_reads (sound_quotaOf _) rfl).mp (he.2 (by decide))
  exact hno (reads_quotaOf _)

/-- It is asked for as a quota of zero. -/
theorem number_converted_quota :
    Operation.getQuota.Sends (Zend.reading .withoutNul none) Sdk.idle [.array (quotaOf 4294967296)]
      fun c => (Key.amount, 0) ∈ c.numbers := by
  have hp : Operation.getQuota.parse (Zend.reading .withoutNul none) [.array (quotaOf 4294967296)] =
      .success (.array (quotaOf 4294967296), 0, 0) := rfl
  have hk : (Key.amount, NumType.int) ∈ Operation.getQuota.numeric := by decide
  exact (number_converted _ Sdk.idle (sound_quotaOf _) hp hk (gives_quotaOf _)).handed (reads_quotaOf _)

/-! ## Numbers issued by the SDK -/

/-- The 64-bit numbers of an instance that a script passes back. -/
inductive IssuedNumber where
  | localityAwareInfo
  | hash
  deriving DecidableEq, Repr

namespace IssuedNumber

def ofInstance (inst : Instance) : IssuedNumber → UInt64
  | .localityAwareInfo => inst.localityAwareInfo
  | .hash => inst.hash

/-- The entry it has in an instance's array and in the request it is passed back in. -/
def key : IssuedNumber → Bytes
  | .localityAwareInfo => Key.localityAwareInfo
  | .hash => Key.hashKey

/-- The operation it is passed back to. -/
def operation : IssuedNumber → Operation
  | .localityAwareInfo => .updateServiceCallResult
  | .hash => .getOneInstance

theorem fetchDim_key (inst : Instance) (i : IssuedNumber) :
    fetchDim (convertInstanceToArray inst) i.key = .long (i.ofInstance inst).toInt64 := by
  cases i with
  | localityAwareInfo => exact fetchDim_attribute (by decide) (by simp [writtenAttributes, ofInstance, key])
  | hash => exact fetchDim_attribute (by decide) (by simp [writtenAttributes, ofInstance, key])

theorem mem_numeric (i : IssuedNumber) : (i.key, NumType.uint64) ∈ i.operation.numeric := by cases i <;> decide

/-- The two reinterpretations of the sign cancel. -/
theorem convert_castString (z : Zend) (v : UInt64) :
    NumType.uint64.convert (castString z (.long v.toInt64)) = v.toNat := by
  simp only [NumType.convert, castString, atol_spell]
  rfl

end IssuedNumber

/-- **A 64-bit number issued by the SDK comes back as it was**, whatever its
top bit: where the array it is passed back in can be read, its setter receives
it, and no call is made otherwise. -/
theorem issued_survives (z : Zend) (sdk : Sdk) (inst : Instance) (i : IssuedNumber) {ht : HashTable}
    (hs : Zval.Sound (.array ht)) {args : List Zval} {timeout flowId : UInt64}
    (hp : i.operation.parse z args = .success (.array ht, timeout, flowId))
    (hg : Gives ht i.key (castString z (fetchDim (convertInstanceToArray inst) i.key))) :
    (i.operation.Reads z ht →
      i.operation.Sends z sdk args fun c => (i.key, ((i.ofInstance inst).toNat : Int)) ∈ c.numbers) ∧
    (¬ i.operation.Reads z ht → i.operation.SendsNothing z sdk args) := by
  refine ⟨fun hr => ?_, (sendsNothing_iff_not_reads hs hp).mpr⟩
  have hnul : NulFree (castString z (.long (i.ofInstance inst).toInt64)) := nulFree_spell _
  have hsub : (decoded z ht).sub i.key = castString z (.long (i.ofInstance inst).toInt64) := by
    rw [hg.sub_decoded (nulFree_numeric i.mem_numeric) hr.decodable, i.fetchDim_key, hnul.cstr]
  have hne : i.key ≠ Key.ttl ∧ i.key ≠ Key.amount := by cases i <;> decide
  rw [sends_number_iff hs hp i.mem_numeric, readNumber_plain hne.1 hne.2, hsub]
  exact ⟨hr, (IssuedNumber.convert_castString z _).symm⟩

/-- A report that passes back the locality information of an instance. -/
def localityReport (z : Zend) (inst : Instance) : HashTable :=
  arrayLiteral [(Key.service, .str (lit "cart")), (Key.localityAwareInfo,
    .str (castString z (fetchDim (convertInstanceToArray inst) Key.localityAwareInfo)))]

section LocalityReport

variable (z : Zend) (inst : Instance)

theorem sound_localityReport : Zval.Sound (.array (localityReport z inst)) := sound_arrayLiteral_str (by simp)

theorem namesNulFree_localityReport : NamesNulFree (localityReport z inst) :=
  namesNulFree_arrayLiteral [Key.service, Key.localityAwareInfo] rfl (by decide) (by decide)

theorem strings_localityReport : Strings (localityReport z inst) :=
  strings_arrayLiteral [Key.service, Key.localityAwareInfo] rfl (by decide) (by simp)

end LocalityReport

/-- An instance with the largest locality information, which PHP has as -1. -/
def farInstance : Instance := { someInstance with localityAwareInfo := UInt64.ofNat (2 ^ 64 - 1) }

theorem issued_survives_far :
    Operation.updateServiceCallResult.Sends (Zend.reading .withoutNul none) Sdk.idle
      [.array (localityReport (Zend.reading .withoutNul none) farInstance), .long 500, .long 1]
      fun c => (Key.localityAwareInfo, ((2 ^ 64 - 1 : Nat) : Int)) ∈ c.numbers :=
  (issued_survives (Zend.reading .withoutNul none) Sdk.idle farInstance .localityAwareInfo
    (sound_localityReport _ farInstance) rfl ((namesNulFree_localityReport _ farInstance).gives
      (find?_arrayLiteral [Key.service, Key.localityAwareInfo] rfl (by decide) (by simp [IssuedNumber.key])))).1
    ((strings_localityReport _ farInstance).reads (namesNulFree_localityReport _ farInstance) rfl _)

end PolarisPhp
