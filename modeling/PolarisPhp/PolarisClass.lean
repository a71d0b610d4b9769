/-
`polaris.class.php`: the class `Polaris`, which wraps `PolarisClient`. It
hands some requests on as they are and builds others from its arguments.
Its feedback on a quota holds an integer, which the extension's decoder takes
for a string, and the two do not agree on the names of two entries
(`feedback_iff`). So no feedback arrives (`feedback_never`).
-/
import PolarisPhp.Instances

namespace PolarisPhp

open Bytes Decimal Fallible

namespace Polaris

section Methods

variable (z : Zend) (sdk : Sdk)

/-- The configuration the constructor builds; `$default_config` stands in for what is empty. -/
def configArray (configPath logDir : Zval) : HashTable :=
  let configPath := if phpEmpty configPath then .str (lit "./polaris.yaml") else configPath
  let logDir := if phpEmpty logDir then .str (lit "./") else logDir
  arrayLiteral [(lit "config_path", configPath), (lit "log_dir", logDir)]

/-- `__construct`, on a new `PolarisClient`. -/
def construct (configPath logDir : Zval) : Exec Unit := do
  let _ ← PolarisPhp.construct z sdk [.array (configArray configPath logDir)]
  let _ ← PolarisPhp.initProvider sdk
  let _ ← PolarisPhp.initConsumer sdk
  let _ ← PolarisPhp.initLimit sdk
  return

def register (instanceInfo timeout flowId : Zval) : Exec Zval :=
  PolarisPhp.register z sdk [instanceInfo, timeout, flowId]

def deregister (instanceInfo timeout flowId : Zval) : Exec Zval :=
  PolarisPhp.deregister z sdk [instanceInfo, timeout, flowId]

def heartbeat (namespace_ service host port vpcId : Zval) : Exec Zval :=
  PolarisPhp.heartbeat z sdk [.array (arrayLiteral [(lit "namespace", namespace_), (lit "service", service),
    (lit "host", host), (lit "port", port), (lit "vpc_id", vpcId)])]

def initService (instanceInfo timeout flowId : Zval) : Exec Zval :=
  PolarisPhp.initService z sdk [instanceInfo, timeout, flowId]

def getOneInstance (instanceInfo timeout flowId : Zval) : Exec Zval :=
  PolarisPhp.getOneInstance z sdk [instanceInfo, timeout, flowId]

def getInstances (instanceInfo timeout flowId : Zval) : Exec Zval :=
  PolarisPhp.getInstances z sdk [instanceInfo, timeout, flowId]

def getAllInstances (instanceInfo timeout flowId : Zval) : Exec Zval :=
  PolarisPhp.getAllInstances z sdk [instanceInfo, timeout, flowId]

def updateServiceCallResult (instanceInfo timeout flowId : Zval) : Exec Zval :=
  PolarisPhp.updateServiceCallResult z sdk [instanceInfo, timeout, flowId]

/-- The array `GetQuota` and `InitQuotaWindow` build. -/
def quotaArray (namespace_ service amount labels subset : Zval) : HashTable :=
  arrayLiteral [(lit "namespace", namespace_), (lit "service", service), (lit "amount", .str (castString z amount)),
    (lit "labels", labels), (lit "subset", subset)]

def getQuota (namespace_ service amount labels subset : Zval) : Exec Zval :=
  PolarisPhp.getQuota z sdk [.array (quotaArray z namespace_ service amount labels subset)]

def initQuotaWindow (namespace_ service amount labels subset : Zval) : Exec Zval :=
  PolarisPhp.initQuotaWindow z sdk [.array (quotaArray z namespace_ service amount labels subset)]

/-- The array `UpdateCallResult` builds. -/
def callResultArray (namespace_ service responseTime respontType respontCode labels subset : Zval) : HashTable :=
  arrayLiteral [(lit "namespace", namespace_), (lit "service", service),
    (lit "response_time", .str (castString z responseTime)), (lit "respont_code", respontCode),
    (lit "respont_type", respontType), (lit "labels", labels), (lit "subset", subset)]

def updateCallResult (namespace_ service responseTime respontType respontCode labels subset : Zval) : Exec Zval :=
  PolarisPhp.updateCallResult z sdk
    [.array (callResultArray z namespace_ service responseTime respontType respontCode labels subset)]

end Methods

end Polaris

/-! ## Feedback -/

/-- The constants `Polaris::Respont_Type_*`. -/
inductive RespontType where
  | ok
  | failed
  | limit
  deriving DecidableEq, Repr

def RespontType.value : RespontType → Bytes
  | .ok => lit "OK"
  | .failed => lit "Failed"
  | .limit => lit "Limit"

/-- The SDK's name for each. -/
def RespontType.result : RespontType → LimitCallResultType
  | .ok => .kLimitCallResultOk
  | .failed => .kLimitCallResultFailed
  | .limit => .kLimitCallResultLimited

/-- The arguments of a feedback as its doc comment declares them; the time is
passed as a string. -/
structure Feedback where
  namespace_ : Bytes
  service : Bytes
  responseTime : UInt64
  respontType : RespontType
  respontCode : Int64
  labels : HashTable
  subset : HashTable

namespace Feedback

def array (z : Zend) (f : Feedback) : HashTable :=
  Polaris.callResultArray z (.str f.namespace_) (.str f.service) (.str (spell f.responseTime.toNat))
    (.str f.respontType.value) (.long f.respontCode) (.array f.labels) (.array f.subset)

def send (z : Zend) (sdk : Sdk) (f : Feedback) : Exec Zval :=
  Polaris.updateCallResult z sdk (.str f.namespace_) (.str f.service) (.str (spell f.responseTime.toNat))
    (.str f.respontType.value) (.long f.respontCode) (.array f.labels) (.array f.subset)

/-- What is handed over is what was given. -/
structure Carries (f : Feedback) (req : LimitCallResult) : Prop where
  serviceNamespace : req.serviceNamespace = f.namespace_
  serviceName : req.serviceName = f.service
  responseTime : req.responseTime = f.responseTime
  responseResult : req.responseResult = f.respontType.result
  responseCode : req.responseCode.toInt = f.respontCode.toInt

/-- Sent from an object with a limit API, the feedback reaches the SDK as it was given. -/
def Agrees (z : Zend) (sdk : Sdk) (f : Feedback) : Prop :=
  ∀ w : World, w.obj.limit.isSome → ∃ req,
    ((f.send z sdk).world w).calls = w.calls ++ [.updateCallResult req] ∧ f.Carries req

/-- The reads the decoder makes of the feedback's array go through: of its
integer and its two arrays as strings, and of the arrays' own entries where
they are found. -/
structure Read (z : Zend) (f : Feedback) : Prop where
  code : ∃ s, zStrval z (.long f.respontCode) = .ok s
  labels : ∃ s, zStrval z (.array f.labels) = .ok s
  subset : ∃ s, zStrval z (.array f.subset) = .ok s
  entries : z.keyLength = .withNul → Decodable z f.labels ∧ Decodable z f.subset

/-- The feedback of a success with code 0, in strings without NUL and a time a `long` holds. -/
structure Plain (f : Feedback) : Prop where
  type : f.respontType = .ok
  code : f.respontCode = 0
  time : f.responseTime.toNat < 2 ^ 63
  serviceNamespace : NulFree f.namespace_
  serviceName : NulFree f.service

section Array

variable (z : Zend) (f : Feedback)

/-- The keys of the array. -/
def keys : List Bytes :=
  [Key.namespace_, Key.service, Key.callResponseTime, lit "respont_code", lit "respont_type", Key.labels,
    Key.serviceSubSet]

theorem plain_keys : keys.Nodup ∧ ∀ k ∈ keys, symtableKey k = .name k := by decide

theorem live_array : (f.array z).live =
    [(.name Key.namespace_, .str f.namespace_), (.name Key.service, .str f.service),
      (.name Key.callResponseTime, .str (spell f.responseTime.toNat)),
      (.name (lit "respont_code"), .long f.respontCode), (.name (lit "respont_type"), .str f.respontType.value),
      (.name Key.labels, .array f.labels), (.name Key.serviceSubSet, .array f.subset)] :=
  live_arrayLiteral keys rfl plain_keys

theorem namesNulFree_array : NamesNulFree (f.array z) := namesNulFree_arrayLiteral keys rfl plain_keys (by decide)

variable {z f}

theorem sound_array (hl : Zval.Sound (.array f.labels)) (hs : Zval.Sound (.array f.subset)) :
    Zval.Sound (.array (f.array z)) := by
  refine sound_arrayLiteral fun p hp => ?_
  simp only [List.mem_cons, List.not_mem_nil, or_false] at hp
  rcases hp with rfl | rfl | rfl | rfl | rfl | rfl | rfl
  · exact .str
  · exact .str
  · exact .str
  · exact .long
  · exact .str
  · exact hl
  · exact hs

theorem decodable_array : Decodable z (f.array z) ↔ (∃ s, zStrval z (.long f.respontCode) = .ok s) ∧
    (∃ s, zStrval z (.array f.labels) = .ok s) ∧ ∃ s, zStrval z (.array f.subset) = .ok s := by
  have hr : ∀ k v, Readable z (.name k, v) ↔ ∃ s, zStrval z v = .ok s := fun k v => by simp [Readable]
  simp only [Decodable, live_array, List.forall_mem_cons, hr, zStrval_str, Except.ok.injEq, exists_eq', true_and,
    List.not_mem_nil, false_imp_iff, implies_true, and_true]

theorem find?_array {k : Bytes} {v : Zval} (hs : (f.array z).Sound) (h : (.name k, v) ∈ (f.array z).live) :
    (f.array z).find? (.name k) = some v := hs.find?_eq_some.mpr h

/-- Neither the type nor the code is under the name the decoder reads. -/
theorem find?_array_none {k : Bytes} (h : k ∈ [Key.callResponseType, Key.callResponseCode]) :
    (f.array z).find? (.name k) = none := by
  have hk : ∀ k ∈ [Key.callResponseType, Key.callResponseCode], k ∉ keys := by decide
  exact find?_arrayLiteral_none keys rfl plain_keys (hk k h)

/-- The decoder's reading of the feedback. -/
theorem carries_iff (hs : (f.array z).Sound) (l s : StdMap) :
    f.Carries (limitCallResultOf (decoded z (f.array z)) l s) ↔ f.Plain := by
  have hn := namesNulFree_array z f
  have hsub : ∀ k t, (ZKey.name k, Zval.str t) ∈ (f.array z).live → (decoded z (f.array z)).sub k = cstr t := by
    intro k t h
    rw [hn.sub_decoded, find?_array hs h]
    rfl
  have hns : (decoded z (f.array z)).sub Key.namespace_ = cstr f.namespace_ := hsub _ _ (by simp [live_array])
  have hsv : (decoded z (f.array z)).sub Key.service = cstr f.service := hsub _ _ (by simp [live_array])
  have htime : (decoded z (f.array z)).sub Key.callResponseTime = spell f.responseTime.toNat := by
    rw [hsub _ (spell f.responseTime.toNat) (by simp [live_array]), (nulFree_spell _).cstr]
  have htype : (decoded z (f.array z)).sub Key.callResponseType = [] := by
    rw [hn.sub_decoded, find?_array_none (by decide)]
    rfl
  have hcode : (decoded z (f.array z)).sub Key.callResponseCode = [] := by
    rw [hn.sub_decoded, find?_array_none (by decide)]
    rfl
  have hzero : (atoi []).toInt = f.respontCode.toInt ↔ f.respontCode = 0 := by
    rw [show (atoi []).toInt = (0 : Int64).toInt from rfl, Int64.toInt_inj, eq_comm]
  have hok : convertToLimitCallResultType [] = f.respontType.result ↔ f.respontType = .ok := by
    cases f.respontType <;> decide
  simp only [limitCallResultOf, hns, hsv, htime, htype, hcode]
  refine ⟨fun hx => ?_, fun hx => ?_⟩
  · obtain ⟨h1, h2, h3, h4, h5⟩ := hx
    exact ⟨hok.mp h4, hzero.mp h5, (toUInt64_atol_spell _).mp h3, cstr_eq_self.mp h1, cstr_eq_self.mp h2⟩
  · obtain ⟨h1, h2, h3, h4, h5⟩ := hx
    exact ⟨cstr_eq_self.mpr h4, cstr_eq_self.mpr h5, (toUInt64_atol_spell _).mpr h3, hok.mpr h1, hzero.mpr h2⟩

/-- What a nested lookup finds: with the NUL counted the array, without it nothing. -/
theorem findEntry_array (hs : (f.array z).Sound) {k : Bytes} {sub : HashTable}
    (h : (.name k, .array sub) ∈ (f.array z).live) :
    findEntry z (f.array z) k = match z.keyLength with
      | .withNul => some (.array sub)
      | .withoutNul => none := by
  cases hk : z.keyLength with
  | withNul => rw [findEntry_eq, Zend.lookupName, hk, find?_array hs h]
  | withoutNul => exact findEntry_eq_none (namesNulFree_array z f) fun h => by rw [hk] at h; cases h

theorem exists_limitCallResult (hl : Zval.Sound (.array f.labels)) (hs : Zval.Sound (.array f.subset)) :
    (∃ req, limitCallResult z (.array (f.array z)) = .ok req ∧ f.Carries req) ↔ f.Read z ∧ f.Plain := by
  have hsound := sound_array (z := z) hl hs
  have hfl := findEntry_array hsound.of_array
    (show (.name Key.labels, .array f.labels) ∈ (f.array z).live by simp [live_array])
  have hfs := findEntry_array hsound.of_array
    (show (.name Key.serviceSubSet, .array f.subset) ∈ (f.array z).live by simp [live_array])
  simp only [limitCallResult_eq_ok hsound, decodable_array]
  refine ⟨fun hx => ?_, fun hx => ?_⟩
  · obtain ⟨_, ⟨⟨hc, hal, has⟩, l, s, hfetl, hfets, rfl⟩, hcar⟩ := hx
    refine ⟨⟨hc, hal, has, fun hk => ?_⟩, (carries_iff hsound.of_array l s).mp hcar⟩
    rw [hfl, hk] at hfetl
    rw [hfs, hk] at hfets
    exact ⟨hfetl.decodable, hfets.decodable (by simp)⟩
  · obtain ⟨⟨hc, hal, has, hent⟩, hplain⟩ := hx
    have hl' : ∃ l, FetchesArray z (findEntry z (f.array z) Key.labels) l := by
      rw [hfl]
      cases hk : z.keyLength with
      | withNul => exact ⟨_, .inr ⟨f.labels, rfl, (hent hk).1, rfl⟩⟩
      | withoutNul => exact ⟨∅, .inl ⟨fun _ h => (by cases h), rfl⟩⟩
    have hs' : ∃ s, Fetches z (findEntry z (f.array z) Key.serviceSubSet)
        (findEntry z (f.array z) Key.serviceSubSet) s := by
      rw [hfs]
      cases hk : z.keyLength with
      | withNul => exact ⟨_, .inr ⟨by simp, f.subset, rfl, (hent hk).2, rfl⟩⟩
      | withoutNul => exact ⟨∅, .inl ⟨rfl, rfl⟩⟩
    obtain ⟨l, hl'⟩ := hl'
    obtain ⟨s, hs'⟩ := hs'
    exact ⟨_, ⟨⟨hc, hal, has⟩, l, s, hl', hs', rfl⟩, (carries_iff hsound.of_array l s).mpr hplain⟩

end Array

theorem agrees_iff_limitCallResult (z : Zend) (sdk : Sdk) (f : Feedback) :
    f.Agrees z sdk ↔ ∃ req, limitCallResult z (.array (f.array z)) = .ok req ∧ f.Carries req := by
  have hp : Operation.updateCallResult.parse z [.array (f.array z)] = .success (.array (f.array z), 0, 0) := rfl
  have hsends : f.Agrees z sdk ↔ Operation.updateCallResult.Sends z sdk [.array (f.array z)]
      (fun c => ∃ req, c = .updateCallResult req ∧ f.Carries req) := by
    refine forall₂_congr fun w hw => ⟨fun h => ?_, fun h => ?_⟩
    · obtain ⟨req, hc, hcar⟩ := h
      exact ⟨_, hc, req, rfl, hcar⟩
    · obtain ⟨_, hc, req, rfl, hcar⟩ := h
      exact ⟨req, hc, hcar⟩
  rw [hsends, sends_iff hp]
  refine ⟨fun h => ?_, fun h => ?_⟩
  · obtain ⟨s, hs, req, hreq, hcar⟩ := h
    simp only [Operation.serve, bind_eq_ok, pure_eq_ok] at hs
    obtain ⟨req', hr, rfl⟩ := hs
    exact ⟨req', hr, SdkCall.updateCallResult.inj hreq ▸ hcar⟩
  · obtain ⟨req, hr, hcar⟩ := h
    exact ⟨_, bind_eq_ok.mpr ⟨req, hr, rfl⟩, req, rfl, hcar⟩

end Feedback

/-- What a feedback takes to arrive as it was given: its integer read as a
string, and a success with code 0 in it. -/
theorem feedback_iff (z : Zend) (sdk : Sdk) {f : Feedback} (hl : Zval.Sound (.array f.labels))
    (hs : Zval.Sound (.array f.subset)) : f.Agrees z sdk ↔ f.Read z ∧ f.Plain := by
  rw [Feedback.agrees_iff_limitCallResult, Feedback.exists_limitCallResult hl hs]

/-- The decoder takes the entries before the code, and not the code. -/
theorem Feedback.transferToStdMap_array {z : Zend} {f : Feedback} (hz : z.strval (.long f.respontCode) = none) :
    transferToStdMap z (f.array z) = .error .strval := by
  have hsound : (f.array z).Sound := by
    rw [array, Polaris.callResultArray, arrayLiteral_eq_ofList]
    exact Table.sound_ofList _
  have hcount : (f.array z).nNumOfElements ≠ 0 := fun h0 => by
    have hl := live_eq_nil_of_count hsound h0
    rw [live_array] at hl
    cases hl
  have hstr : ∀ m k t, insertBucket z m (.name k, .str t) = .ok (m.insertIfNew (cstr k) (cstr t)) := fun m k t => rfl
  have hlong : ∀ m k, insertBucket z m (.name k, .long f.respontCode) = .error .strval := fun m k => by
    simp only [insertBucket, zstrVal_name, zStrval, hz]
    rfl
  rw [transferToStdMap_eq_foldlM hcount, live_array]
  simp only [List.foldlM_cons, hstr, hlong, bind, Except.bind]

/-- Where the code of a feedback is not read as a string, the process stops
there, and the SDK is not called. -/
theorem Feedback.send_stops {z : Zend} {f : Feedback} (hz : z.strval (.long f.respontCode) = none) (sdk : Sdk)
    {w : World} (hw : w.obj.limit.isSome) : (f.send z sdk).run w = .error .strval w := by
  obtain ⟨p, hp⟩ := Option.isSome_iff_exists.mp hw
  have hparse : Operation.updateCallResult.parse z [.array (f.array z)] = .success (.array (f.array z), 0, 0) := rfl
  have hserve : Operation.updateCallResult.serve z sdk (.array (f.array z)) 0 0 = .error .strval := by
    simp only [Operation.serve, limitCallResult, zArrvalP_array, bind, Except.bind, transferToStdMap_array hz]
  refine (callOperation_cases z sdk [.array (f.array z)] .updateCallResult w).trans ?_
  rw [hparse]
  simp only [show Operation.updateCallResult.api w.obj = some p from hp, hserve, serveResult]

/-- **No feedback arrives as it was given**: `Z_STRVAL` of its integer follows
the integer as a pointer, and with the code 0, the only one that the decoder
would hand over, that is the null pointer. -/
theorem feedback_never {z : Zend} (hz : z.strval (.long 0) = none) (sdk : Sdk) {f : Feedback}
    (hl : Zval.Sound (.array f.labels)) (hs : Zval.Sound (.array f.subset)) : ¬ f.Agrees z sdk := by
  rw [feedback_iff z sdk hl hs]
  rintro ⟨hread, hplain⟩
  obtain ⟨s, hcode⟩ := hread.code
  rw [hplain.code] at hcode
  simp [zStrval, hz] at hcode

/-- A call that was limited. -/
def limitedCall : Feedback := ⟨lit "default", lit "cart", 12, .limit, 429, Table.empty, Table.empty⟩

theorem sound_emptyArray : Zval.Sound (.array Table.empty) := .array Table.sound_empty fun _ _ h => by cases h

/-- It ends the process. -/
theorem feedback_limitedCall :
    ¬ limitedCall.Agrees (Zend.native .withoutNul) Sdk.idle ∧ ∀ w : World, w.obj.limit.isSome →
      (limitedCall.send (Zend.native .withoutNul) Sdk.idle).run w = .error .strval w := by
  refine ⟨fun ha => ?_, fun w hw => Feedback.send_stops rfl Sdk.idle hw⟩
  obtain ⟨req, hcalls, -⟩ := ha World.ready rfl
  rw [Exec.world, Feedback.send_stops rfl Sdk.idle rfl] at hcalls
  cases hcalls

/-- So does a success with code 0. -/
theorem feedback_never_success :
    ¬ Feedback.Agrees (Zend.native .withoutNul) Sdk.idle
      ⟨lit "default", lit "cart", 12, .ok, 0, Table.empty, Table.empty⟩ :=
  feedback_never rfl Sdk.idle sound_emptyArray sound_emptyArray

end PolarisPhp
