/-
What becomes of an entry a request leaves out. The decoder has no word for
absence: a missing key reads as the empty string, which is converted like
any other and handed to a setter that the code always calls. So an absent
entry leaves the SDK's default in force exactly where the empty string
converts to it (`defaults_iff`): not for the weight, for a health check's
ttl, for the load balancer or for the set name.
-/
import PolarisPhp.Safety

namespace PolarisPhp

open Bytes Decimal

/-! ## Requests with setters left out -/

/-- `req` had the setters of the attributes in `S` not been called. The ttl
is that of a health check; without one it says nothing. -/
def InstanceRegisterRequest.without (req : InstanceRegisterRequest) (S : List Bytes) : InstanceRegisterRequest :=
  let unset : InstanceRegisterRequest := {
    serviceNamespace := req.serviceNamespace
    serviceName := req.serviceName
    serviceToken := req.serviceToken
    host := req.host
    port := req.port }
  { req with
    vpcId := if S.contains Key.vpcID then unset.vpcId else req.vpcId
    protocol := if S.contains Key.protocol then unset.protocol else req.protocol
    weight := if S.contains Key.weight then unset.weight else req.weight
    priority := if S.contains Key.priority then unset.priority else req.priority
    version := if S.contains Key.version then unset.version else req.version
    metadata := if S.contains Key.metadata then unset.metadata else req.metadata
    healthCheckFlag := if S.contains Key.heartbeatFlag then unset.healthCheckFlag else req.healthCheckFlag
    ttl := if S.contains Key.ttl ∧ req.healthCheckFlag then unset.ttl else req.ttl }

def GetOneInstanceRequest.without (req : GetOneInstanceRequest) (S : List Bytes) : GetOneInstanceRequest :=
  let unset : GetOneInstanceRequest := { serviceKey := req.serviceKey }
  { req with
    hashKey := if S.contains Key.hashKey then unset.hashKey else req.hashKey
    hashString := if S.contains Key.hashString then unset.hashString else req.hashString
    ignoreHalfOpen := if S.contains Key.ignoreHalfOpen then unset.ignoreHalfOpen else req.ignoreHalfOpen
    sourceService := if S.contains Key.sourceService then unset.sourceService else req.sourceService
    sourceSetName := if S.contains Key.sourceSetName then unset.sourceSetName else req.sourceSetName
    canary := if S.contains Key.canary then unset.canary else req.canary
    labels := if S.contains Key.labels then unset.labels else req.labels
    metadata := if S.contains Key.metadata then unset.metadata else req.metadata
    metadataFailover := if S.contains Key.metadataFailoverTypeStr then unset.metadataFailover else req.metadataFailover
    loadBalanceType := if S.contains Key.loadBalanceTypeStr then unset.loadBalanceType else req.loadBalanceType
    backupInstanceNum := if S.contains Key.backupInstanceNum then unset.backupInstanceNum else req.backupInstanceNum
    replicateIndex := if S.contains Key.replicateIndex then unset.replicateIndex else req.replicateIndex }

def QuotaRequest.without (req : QuotaRequest) (S : List Bytes) : QuotaRequest :=
  let unset : QuotaRequest := {}
  { req with
    labels := if S.contains Key.labels then unset.labels else req.labels
    acquireAmount := if S.contains Key.amount then unset.acquireAmount else req.acquireAmount
    subset := if S.contains Key.serviceSubSet then unset.subset else req.subset }

/-- The operations whose requests have optional attributes with a default of
the SDK's. -/
inductive DefaultingOp where
  | register
  | initService
  | getOneInstance
  | getQuota
  | initQuotaWindow
  deriving DecidableEq

def DefaultingOp.operation : DefaultingOp → Operation
  | .register => .register
  | .initService => .initService
  | .getOneInstance => .getOneInstance
  | .getQuota => .getQuota
  | .initQuotaWindow => .initQuotaWindow

/-- The operation hands the SDK a request that is the same without the
setters of the attributes in `S`. -/
def KeepsDefaults (z : Zend) (sdk : Sdk) (ht : HashTable) (timeout flowId : UInt64) (returnVal : HashTable)
    (S : List Bytes) : DefaultingOp → Prop
  | .register => ∃ req, Hands (registerInstance z sdk (.array ht) timeout flowId returnVal) (.register req) ∧
      req = req.without S
  | .initService => ∃ req, Hands (doInitService z sdk (.array ht) timeout flowId returnVal) (.initService req) ∧
      req = req.without S
  | .getOneInstance => ∃ req,
      Hands (doGetOneInstance z sdk (.array ht) timeout flowId returnVal) (.getOneInstance req) ∧ req = req.without S
  | .getQuota => ∃ req, Hands (doGetQuota z sdk (.array ht) returnVal) (.getQuota req) ∧ req = req.without S
  | .initQuotaWindow => ∃ req, Hands (doInitQuotaWindow z sdk (.array ht) returnVal) (.initQuotaWindow req) ∧
      req = req.without S

/-! ## When the empty string is the default -/

/-- The values that convert to the default, for each optional attribute. -/
def DefaultingOp.optional (healthcheck : Bool) : DefaultingOp → List (Bytes × (Bytes → Bool))
  | .register => [
      (Key.vpcID, (· = [])),
      (Key.protocol, (· = [])),
      (Key.weight, fun v => atoi v = 100),
      (Key.priority, fun v => atoi v = 0),
      (Key.version, (· = [])),
      (Key.heartbeatFlag, fun v => isTrue v = false),
      (Key.ttl, fun v => healthcheck → atoi v = 5)]
  | .initService | .getOneInstance => [
      (Key.hashKey, fun v => (atol v).toUInt64 = 0),
      (Key.hashString, (· = [])),
      (Key.ignoreHalfOpen, fun v => isTrue v = false),
      -- the set name is never the entry's
      (Key.sourceSetName, fun _ => false),
      (Key.canary, (· = [])),
      (Key.metadataFailoverTypeStr, fun v => convertToMetadataFailoverType v = .kMetadataFailoverNone),
      (Key.loadBalanceTypeStr, fun v => convertToLoadBalanceType v = kLoadBalanceTypeDefaultConfig),
      (Key.backupInstanceNum, fun v => (atoi v).toUInt32 = 0),
      (Key.replicateIndex, fun v => atoi v = 0)]
  | .getQuota | .initQuotaWindow => [(Key.amount, fun v => v = [] ∨ atoi v = 1)]

/-- The attributes whose absence the SDK's default does not survive. -/
def DefaultingOp.missed (healthcheck : Bool) : DefaultingOp → List Bytes
  | .register => if healthcheck then [Key.weight, Key.ttl] else [Key.weight]
  | .initService | .getOneInstance => [Key.sourceSetName, Key.loadBalanceTypeStr]
  | .getQuota | .initQuotaWindow => []

theorem DefaultingOp.empty_is_default (healthcheck : Bool) (op : DefaultingOp) :
    ∀ p ∈ op.optional healthcheck, p.2 [] ↔ p.1 ∉ op.missed healthcheck := by
  cases op <;> cases healthcheck <;> decide

/-- An attribute of which `v` was read keeps its default. -/
def DefaultingOp.keeps (healthcheck : Bool) (op : DefaultingOp) (p : Bytes × (Bytes → Bool))
    (v : Option Bytes) : Bool :=
  match v with
  | none => !(op.missed healthcheck).contains p.1
  | some v => p.2 v

theorem DefaultingOp.keeps_iff {healthcheck : Bool} {op : DefaultingOp} {p : Bytes × (Bytes → Bool)}
    (hp : p ∈ op.optional healthcheck) (v : Option Bytes) : op.keeps healthcheck p v ↔ p.2 (v.getD []) := by
  cases v with
  | none => simpa [keeps] using (op.empty_is_default healthcheck p hp).symm
  | some v => rfl

/-- The string read under `k`: that of the first name that is `k` up to a NUL. -/
def readAt (ht : HashTable) (k : Bytes) : Option Bytes :=
  ((ht.live.filterMap strEntry).find? fun p => cstr p.1 = k).map fun p => cstr p.2

/-- The registration asks for a health check. -/
def healthCheck (ht : HashTable) : Bool := isTrue ((readAt ht Key.heartbeatFlag).getD [])

/-- Every value is a string. -/
def StringValued (ht : HashTable) : Prop := ∀ b ∈ ht.live, ∃ t, b.2 = .str t

theorem Strings.getElem?_decoded {z : Zend} {ht : HashTable} (h : Strings ht) (k : Bytes) :
    (decoded z ht)[k]? = readAt ht k := by
  rw [PolarisPhp.getElem?_decoded, readAt]
  unfold Strings at h
  generalize ht.live = l at h ⊢
  induction l with
  | nil => rfl
  | cons b l ih =>
    obtain ⟨s, t, rfl⟩ := h b (by simp)
    simp only [List.map_cons, List.filterMap_cons, strEntry, readBucket, readVal_str, List.find?_cons]
    by_cases hk : cstr s = k
    · simp [hk]
    · simp only [hk, decide_false]
      exact ih fun b hb => h b (by simp [hb])

theorem Strings.sub_decoded {z : Zend} {ht : HashTable} (h : Strings ht) (k : Bytes) :
    (decoded z ht).sub k = (readAt ht k).getD [] := by
  rw [StdMap.sub_eq, h.getElem?_decoded]

/-! ## The requests -/

section Without

variable {params : StdMap} {S : List Bytes} {timeout flowId : UInt64}

theorem registerRequestOf_without :
    registerRequestOf params ∅ timeout flowId = (registerRequestOf params ∅ timeout flowId).without S ↔
      ∀ p ∈ DefaultingOp.optional (isTrue (params.sub Key.heartbeatFlag)) .register,
        p.1 ∈ S → p.2 (params.sub p.1) := by
  simp only [InstanceRegisterRequest.without, registerRequestOf, InstanceRegisterRequest.mk.injEq, right_eq_ite_iff,
    List.contains_iff_mem, ite_self, true_and, DefaultingOp.optional, List.forall_mem_cons, List.not_mem_nil,
    false_imp_iff, implies_true, and_true, decide_eq_true_eq]
  -- the ttl is the one attribute that another one switches
  by_cases h : isTrue (params.sub Key.heartbeatFlag) = true <;> simp [h]

theorem getOneInstanceRequestOf_without :
    getOneInstanceRequestOf params ∅ ∅ none timeout flowId =
        (getOneInstanceRequestOf params ∅ ∅ none timeout flowId).without S ↔
      ∀ p ∈ DefaultingOp.optional false .getOneInstance, p.1 ∈ S → p.2 (params.sub p.1) := by
  have hset : Key.sourceSetName ≠ [] := by decide
  simp only [GetOneInstanceRequest.without, getOneInstanceRequestOf, GetOneInstanceRequest.mk.injEq, right_eq_ite_iff,
    List.contains_iff_mem, ite_self, true_and, DefaultingOp.optional, List.forall_mem_cons, List.not_mem_nil,
    false_imp_iff, implies_true, and_true, decide_eq_true_eq, hset, Bool.false_eq_true]

theorem quotaRequestOf_without :
    quotaRequestOf params ∅ ∅ = (quotaRequestOf params ∅ ∅).without S ↔
      ∀ p ∈ DefaultingOp.optional false .getQuota, p.1 ∈ S → p.2 (params.sub p.1) := by
  simp only [QuotaRequest.without, quotaRequestOf, QuotaRequest.mk.injEq, right_eq_ite_iff,
    List.contains_iff_mem, ite_self, true_and, DefaultingOp.optional, List.forall_mem_cons, List.not_mem_nil,
    false_imp_iff, implies_true, and_true, decide_eq_true_eq]
  refine imp_congr_right fun _ => ?_
  split
  · rename_i h
    simp only [h, true_or, iff_true]
    decide
  · rename_i h
    simp [h]

end Without

/-- Where the SDK's defaults survive the absence of `S`: the array is one of
strings under string keys, without the nested entries the operation looks
for, and each attribute of `S` is one the empty string leaves at its
default; or else a name with a NUL byte in it reads as that attribute's, and
its value converts to the default. -/
structure DefaultsHold (z : Zend) (ht : HashTable) (S : List Bytes) (op : DefaultingOp) : Prop where
  strings : Strings ht
  flat : ∀ k ∈ op.operation.untested, ht.find? (.name (z.lookupName k)) = none
  kept : ∀ p ∈ op.optional (healthCheck ht), p.1 ∈ S → op.keeps (healthCheck ht) p (readAt ht p.1)

section StringValued

variable {z : Zend} {ht : HashTable} {S : List Bytes} {timeout flowId : UInt64}

theorem StringValued.decodable_iff (h : StringValued ht) : Decodable z ht ↔ Strings ht := by
  refine forall₂_congr fun ⟨k, v⟩ hb => ?_
  obtain ⟨t, rfl⟩ := h _ hb
  refine ⟨fun hx => ?_, fun hx => ?_⟩
  · obtain ⟨⟨s, rfl⟩, -⟩ := hx
    exact ⟨s, t, rfl⟩
  · obtain ⟨s, t', he⟩ := hx
    cases he
    exact ⟨⟨s, rfl⟩, t, rfl⟩

theorem defaultsHold_iff {op : DefaultingOp} :
    DefaultsHold z ht S op ↔ Strings ht ∧ (∀ k ∈ op.operation.untested, findEntry z ht k = none) ∧
      ∀ p ∈ op.optional (isTrue ((decoded z ht).sub Key.heartbeatFlag)), p.1 ∈ S → p.2 ((decoded z ht).sub p.1) := by
  simp only [findEntry_eq]
  refine ⟨fun h => ?_, fun h => ?_⟩
  · obtain ⟨hstr, hflat, hk⟩ := h
    simp only [hstr.sub_decoded]
    exact ⟨hstr, hflat, fun p hp hS => (DefaultingOp.keeps_iff hp _).mp (hk p hp hS)⟩
  · obtain ⟨hstr, hflat, hk⟩ := h
    simp only [hstr.sub_decoded] at hk
    exact ⟨hstr, hflat, fun p hp hS => (DefaultingOp.keeps_iff hp _).mpr (hk p hp hS)⟩

theorem exists_registerRequest_without (hs : Zval.Sound (.array ht)) (hv : StringValued ht) :
    (∃ req, registerRequest z (.array ht) timeout flowId = .ok req ∧ req = req.without S) ↔
      DefaultsHold z ht S .register := by
  simp only [registerRequest_eq_ok hs, hv.decodable_iff, defaultsHold_iff]
  refine ⟨fun h => ?_, fun h => ?_⟩
  · obtain ⟨_, ⟨hstr, m, hm, rfl⟩, hreq⟩ := h
    obtain ⟨hn, rfl⟩ := hstr.fetches.mp hm
    exact ⟨hstr, List.forall_mem_singleton.mpr hn, registerRequestOf_without.mp hreq⟩
  · obtain ⟨hstr, hflat, hkept⟩ := h
    exact ⟨_, ⟨hstr, ∅, hstr.fetches.mpr ⟨hflat _ (by decide), rfl⟩, rfl⟩, registerRequestOf_without.mpr hkept⟩

theorem exists_getOneInstanceRequest_without (hs : Zval.Sound (.array ht)) (hv : StringValued ht) :
    (∃ req, getOneInstanceRequest z (.array ht) timeout flowId = .ok req ∧ req = req.without S) ↔
      DefaultsHold z ht S .getOneInstance := by
  simp only [getOneInstanceRequest_eq_ok hs, hv.decodable_iff, defaultsHold_iff]
  refine ⟨fun h => ?_, fun h => ?_⟩
  · obtain ⟨_, ⟨hstr, m, l, s, hm, hl, hsrc, rfl⟩, hreq⟩ := h
    obtain ⟨hnm, rfl⟩ := hstr.fetches.mp hm
    obtain ⟨hnl, rfl⟩ := hstr.fetches.mp hl
    obtain ⟨hns, rfl⟩ := hstr.fetchesSource.mp hsrc
    refine ⟨hstr, fun k hk => ?_, getOneInstanceRequestOf_without.mp hreq⟩
    simp only [DefaultingOp.operation, Operation.untested, List.mem_cons, List.not_mem_nil, or_false] at hk
    rcases hk with rfl | rfl | rfl
    · exact hnm
    · exact hnl
    · exact hns
  · obtain ⟨hstr, hflat, hkept⟩ := h
    exact ⟨_, ⟨hstr, ∅, ∅, none, hstr.fetches.mpr ⟨hflat _ (by decide), rfl⟩,
      hstr.fetches.mpr ⟨hflat _ (by decide), rfl⟩, hstr.fetchesSource.mpr ⟨hflat _ (by decide), rfl⟩, rfl⟩,
      getOneInstanceRequestOf_without.mpr hkept⟩

theorem exists_quotaRequest_without (hs : Zval.Sound (.array ht)) (hv : StringValued ht) :
    (∃ req, convertToQuotaRequest z (.array ht) = .ok req ∧ req = req.without S) ↔
      DefaultsHold z ht S .getQuota := by
  simp only [convertToQuotaRequest_eq_ok hs, hv.decodable_iff, defaultsHold_iff]
  refine ⟨fun h => ?_, fun h => ?_⟩
  · obtain ⟨_, ⟨hstr, l, s, hl, hsub, rfl⟩, hreq⟩ := h
    obtain ⟨hnl, rfl⟩ := hstr.fetches.mp hl
    obtain ⟨hns, rfl⟩ := hstr.fetches.mp hsub
    refine ⟨hstr, fun k hk => ?_, quotaRequestOf_without.mp hreq⟩
    simp only [DefaultingOp.operation, Operation.untested, List.mem_cons, List.not_mem_nil, or_false] at hk
    rcases hk with rfl | rfl
    · exact hnl
    · exact hns
  · obtain ⟨hstr, hflat, hkept⟩ := h
    exact ⟨_, ⟨hstr, ∅, ∅, hstr.fetches.mpr ⟨hflat _ (by decide), rfl⟩, hstr.fetches.mpr ⟨hflat _ (by decide), rfl⟩,
      rfl⟩, quotaRequestOf_without.mpr hkept⟩

end StringValued

/-- **An absent entry leaves the SDK's default in force** exactly where the
empty string converts to it. -/
theorem defaults_iff (z : Zend) (sdk : Sdk) {ht : HashTable} (hs : Zval.Sound (.array ht)) (hv : StringValued ht)
    (timeout flowId : UInt64) (returnVal : HashTable) (S : List Bytes) (op : DefaultingOp) :
    KeepsDefaults z sdk ht timeout flowId returnVal S op ↔ DefaultsHold z ht S op := by
  cases op with
  | register =>
    simp only [KeepsDefaults, hands_registerInstance]
    exact exists_registerRequest_without hs hv
  | initService =>
    rw [defaultsHold_iff]
    simp only [KeepsDefaults, hands_doInitService, initServiceRequest_eq]
    exact (exists_getOneInstanceRequest_without hs hv).trans defaultsHold_iff
  | getOneInstance =>
    simp only [KeepsDefaults, hands_doGetOneInstance]
    exact exists_getOneInstanceRequest_without hs hv
  | getQuota =>
    simp only [KeepsDefaults, hands_doGetQuota]
    exact exists_quotaRequest_without hs hv
  | initQuotaWindow =>
    rw [defaultsHold_iff]
    simp only [KeepsDefaults, hands_doInitQuotaWindow]
    exact (exists_quotaRequest_without hs hv).trans defaultsHold_iff

/-! ## A service and nothing else -/

/-- `["service" => "cart"]`. -/
def bareRequest : HashTable := arrayLiteral [(Key.service, .str (lit "cart"))]

theorem live_bareRequest : bareRequest.live = [(.name Key.service, .str (lit "cart"))] :=
  live_arrayLiteral [Key.service] rfl (by decide)

theorem sound_bareRequest : Zval.Sound (.array bareRequest) := sound_strings (l := [(Key.service, lit "cart")])

theorem stringValued_bareRequest : StringValued bareRequest := by
  intro b hb
  rw [live_bareRequest, List.mem_singleton] at hb
  exact ⟨_, by rw [hb]⟩

/-- An instance registered without a weight is registered with the weight 0. -/
theorem defaults_weight :
    ¬ ∀ (z : Zend) (sdk : Sdk) (ht : HashTable) (timeout flowId : UInt64) (returnVal : HashTable) (S : List Bytes)
      (op : DefaultingOp), Zval.Sound (.array ht) → StringValued ht → (∀ k ∈ S, ht.find? (.name k) = none) →
        KeepsDefaults z sdk ht timeout flowId returnVal S op := by
  intro h
  have hk := h (Zend.reading .withoutNul none) Sdk.idle bareRequest 500 1 Table.empty [Key.weight] .register
    sound_bareRequest stringValued_bareRequest (by decide)
  simp only [KeepsDefaults, hands_registerInstance] at hk
  have hw := ((exists_registerRequest_without sound_bareRequest stringValued_bareRequest).mp hk).kept
    (Key.weight, fun v => decide (atoi v = 100)) (by simp [DefaultingOp.optional]) (by simp)
  exact absurd hw (by decide)

/-- Its priority, protocol, version and vpc id are the SDK's. -/
theorem defaults_priority :
    KeepsDefaults (Zend.reading .withoutNul none) Sdk.idle bareRequest 500 1 Table.empty
      [Key.priority, Key.protocol, Key.version, Key.vpcID] .register := by
  refine (defaults_iff _ Sdk.idle sound_bareRequest stringValued_bareRequest 500 1 Table.empty _ .register).mpr
    ⟨fun b hb => ?_, fun k hk => ?_, ?_⟩
  · rw [live_bareRequest, List.mem_singleton] at hb
    exact ⟨_, _, hb⟩
  · rw [List.mem_singleton.mp hk]
    rfl
  · decide

end PolarisPhp
