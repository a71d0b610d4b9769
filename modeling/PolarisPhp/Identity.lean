/-
The identity under which an instance is registered, removed and kept alive:
its namespace, service, host, port and VPC id, and the token of its service.
The three requests derive it by the same expressions (`sends_identity_iff`),
but the heartbeat of the class `Polaris` is built anew from five arguments,
among which there is no token. So the three agree where the description has
no token of its own, or the one the extension would make up
(`oneIdentity_iff`).
-/
import PolarisPhp.Defaults
import PolarisPhp.PolarisClass

namespace PolarisPhp

open Bytes Decimal Fallible

/-- What identifies an instance to the provider API. -/
structure Identity where
  serviceNamespace : Bytes
  serviceName : Bytes
  serviceToken : Bytes
  host : Bytes
  port : Int32
  vpcId : Bytes
  deriving DecidableEq

def InstanceRegisterRequest.identity (req : InstanceRegisterRequest) : Identity where
  serviceNamespace := req.serviceNamespace
  serviceName := req.serviceName
  serviceToken := req.serviceToken
  host := req.host
  port := req.port
  vpcId := req.vpcId

def InstanceDeregisterRequest.identity (req : InstanceDeregisterRequest) : Identity where
  serviceNamespace := req.serviceNamespace
  serviceName := req.serviceName
  serviceToken := req.serviceToken
  host := req.host
  port := req.port
  vpcId := req.vpcId

def InstanceHeartbeatRequest.identity (req : InstanceHeartbeatRequest) : Identity where
  serviceNamespace := req.serviceNamespace
  serviceName := req.serviceName
  serviceToken := req.serviceToken
  host := req.host
  port := req.port
  vpcId := req.vpcId

/-- The identity a call of the provider API carries. -/
def SdkCall.identity : SdkCall → Option Identity
  | .register req => some req.identity
  | .deregister req => some req.identity
  | .heartbeat req => some req.identity
  | _ => none

/-- The identity read from a description. -/
def identityOf (params : StdMap) : Identity where
  serviceNamespace := params.sub Key.namespace_
  serviceName := params.sub Key.service
  serviceToken := tokenOf params
  host := params.sub Key.host
  port := atoi (params.sub Key.port)
  vpcId := params.sub Key.vpcID

/-! ## One derivation -/

/-- The operations of the provider API. -/
def providerOps : List Operation := [.register, .deregister, .heartbeat]

/-- They hand over the identity they read. -/
theorem sends_identity_iff {z : Zend} {sdk : Sdk} {ht : HashTable} (hs : Zval.Sound (.array ht)) {args : List Zval}
    {timeout flowId : UInt64} {op : Operation} (hop : op ∈ providerOps)
    (hp : op.parse z args = .success (.array ht, timeout, flowId)) {id : Identity} :
    op.Sends z sdk args (fun c => c.identity = some id) ↔ op.Reads z ht ∧ id = identityOf (decoded z ht) := by
  have hid : ∀ {s}, op.serve z sdk (.array ht) timeout flowId = .ok s →
      s.call.identity = some (identityOf (decoded z ht)) := by
    intro s h
    simp only [providerOps, List.mem_cons, List.not_mem_nil, or_false] at hop
    rcases hop with rfl | rfl | rfl
    · simp only [Operation.serve, bind_eq_ok, pure_eq_ok, registerRequest_eq_ok hs] at h
      obtain ⟨_, ⟨-, m, -, rfl⟩, rfl⟩ := h
      rfl
    · simp only [Operation.serve, bind_eq_ok, pure_eq_ok, deregisterRequest_eq_ok hs] at h
      obtain ⟨_, ⟨-, rfl⟩, rfl⟩ := h
      rfl
    · simp only [Operation.serve, bind_eq_ok, pure_eq_ok, heartbeatRequest_eq_ok hs] at h
      obtain ⟨_, ⟨-, rfl⟩, rfl⟩ := h
      rfl
  rw [sends_iff hp, ← exists_serve hs sdk timeout flowId]
  refine ⟨fun h => ?_, fun h => ?_⟩
  · obtain ⟨s, h, he⟩ := h
    rw [hid h] at he
    exact ⟨⟨s, h⟩, (Option.some.inj he).symm⟩
  · obtain ⟨⟨s, h⟩, rfl⟩ := h
    exact ⟨s, h, hid h⟩

/-! ## The class -/

/-- The entries of a description that the heartbeat is given. -/
def heartbeatKeys : List Bytes := [Key.namespace_, Key.service, Key.host, Key.port, Key.vpcID]

/-- On a client with a provider API, `x` hands over a request with the identity `id`. -/
def HandsIdentity (x : Exec Zval) (id : Identity) : Prop :=
  ∀ w : World, w.obj.provider.isSome → ∃ c, (x.world w).calls = w.calls ++ [c] ∧ c.identity = some id

/-- `Register` and `Deregister` of the description and the `Heartbeat` of its
entries hand over one identity. -/
def OneIdentity (z : Zend) (sdk : Sdk) (d : HashTable) (timeout flowId : Int64) : Prop :=
  ∃ id, HandsIdentity (Polaris.register z sdk (.array d) (.long timeout) (.long flowId)) id ∧
    HandsIdentity (Polaris.deregister z sdk (.array d) (.long timeout) (.long flowId)) id ∧
    HandsIdentity (Polaris.heartbeat z sdk (fetchDim d Key.namespace_) (fetchDim d Key.service)
      (fetchDim d Key.host) (fetchDim d Key.port) (fetchDim d Key.vpcID)) id

/-- The array `Heartbeat` builds of the entries of `d`. -/
def heartbeatOf (d : HashTable) : HashTable :=
  arrayLiteral [(Key.namespace_, fetchDim d Key.namespace_), (Key.service, fetchDim d Key.service),
    (Key.host, fetchDim d Key.host), (Key.port, fetchDim d Key.port), (Key.vpcID, fetchDim d Key.vpcID)]

/-- A description: strings, those a heartbeat is given among them. -/
structure Description (d : HashTable) : Prop where
  stringValued : StringValued d
  entries : ∀ k ∈ heartbeatKeys, ∃ v, d.find? (.name k) = some v

namespace Description

variable {z : Zend} {d : HashTable} (h : Description d)
include h

theorem fetchDim_eq {k : Bytes} (hk : k ∈ heartbeatKeys) : fetchDim d k = .str (strAt d k) := by
  have hkey : ∀ k ∈ heartbeatKeys, symtableKey k = .name k := by decide
  obtain ⟨v, hf⟩ := h.entries k hk
  obtain ⟨t, rfl⟩ := h.stringValued _ (Table.mem_of_find? hf)
  rw [fetchDim, hkey k hk, strAt, hf]
  rfl

theorem mem_heartbeatOf {p : Bytes × Zval}
    (hp : p ∈ [(Key.namespace_, fetchDim d Key.namespace_), (Key.service, fetchDim d Key.service),
      (Key.host, fetchDim d Key.host), (Key.port, fetchDim d Key.port), (Key.vpcID, fetchDim d Key.vpcID)]) :
    p.2 = .str (strAt d p.1) := by
  simp only [List.mem_cons, List.not_mem_nil, or_false] at hp
  rcases hp with rfl | rfl | rfl | rfl | rfl <;> exact h.fetchDim_eq (by decide)

theorem sound_heartbeatOf : Zval.Sound (.array (heartbeatOf d)) :=
  sound_arrayLiteral_str fun _ hp => ⟨_, h.mem_heartbeatOf hp⟩

theorem decodable_heartbeatOf : Decodable z (heartbeatOf d) := by
  refine (decodable_arrayLiteral_iff heartbeatKeys rfl (by decide)).mpr fun p hp => ?_
  rw [h.mem_heartbeatOf hp]
  exact ⟨_, rfl⟩

theorem sub_heartbeatOf {k : Bytes} (hk : k ∈ heartbeatKeys) :
    (decoded z (heartbeatOf d)).sub k = cstr (strAt d k) := by
  have hn : NamesNulFree (heartbeatOf d) := namesNulFree_arrayLiteral heartbeatKeys rfl (by decide) (by decide)
  have hm : (k, fetchDim d k) ∈ [(Key.namespace_, fetchDim d Key.namespace_), (Key.service, fetchDim d Key.service),
      (Key.host, fetchDim d Key.host), (Key.port, fetchDim d Key.port), (Key.vpcID, fetchDim d Key.vpcID)] := by
    simp only [heartbeatKeys, List.mem_cons, List.not_mem_nil, or_false] at hk
    rcases hk with rfl | rfl | rfl | rfl | rfl <;> simp
  have hf : (heartbeatOf d).find? (.name k) = some (fetchDim d k) :=
    find?_arrayLiteral heartbeatKeys rfl (by decide) hm
  rw [hn.sub_decoded, hf, h.fetchDim_eq hk]
  rfl

/-- A heartbeat has no token to hand on. -/
theorem tokenOf_heartbeatOf :
    tokenOf (decoded z (heartbeatOf d)) = lit "polaris_php_sdk__" ++ cstr (strAt d Key.service) := by
  have hn : NamesNulFree (heartbeatOf d) := namesNulFree_arrayLiteral heartbeatKeys rfl (by decide) (by decide)
  have hf : (heartbeatOf d).find? (.name Key.token) = none :=
    find?_arrayLiteral_none heartbeatKeys rfl (by decide) (by decide)
  have ht : (decoded z (heartbeatOf d)).sub Key.token = [] := by
    rw [hn.sub_decoded, hf]
    rfl
  simp only [tokenOf, ht, h.sub_heartbeatOf (show Key.service ∈ heartbeatKeys by decide), List.isEmpty_nil, if_true]

end Description

/-- Where the three identities are one: the description has no integer key
and no metadata that `Register` would look into, each entry is the first that
reads as its name, and its token is none or the one made up of its service. -/
structure IdentityKept (z : Zend) (d : HashTable) : Prop where
  strings : Strings d
  flat : d.find? (.name (z.lookupName Key.metadata)) = none
  read : ∀ k ∈ [Key.namespace_, Key.service, Key.host, Key.vpcID], (readAt d k).getD [] = cstr (strAt d k)
  port : atoi ((readAt d Key.port).getD []) = atoi (cstr (strAt d Key.port))
  token : (readAt d Key.token).getD [] ∈ [[], lit "polaris_php_sdk__" ++ cstr (strAt d Key.service)]

theorem tokenOf_eq_iff {params : StdMap} :
    tokenOf params = lit "polaris_php_sdk__" ++ params.sub Key.service ↔
      params.sub Key.token ∈ [[], lit "polaris_php_sdk__" ++ params.sub Key.service] := by
  simp only [tokenOf, List.mem_cons, List.not_mem_nil, or_false]
  cases ht : params.sub Key.token with
  | nil => simp
  | cons b t => simp

section OneIdentity

variable {z : Zend} {sdk : Sdk} {d : HashTable} (h : Description d) {timeout flowId : Int64}
include h

theorem identityOf_eq_iff (hd : Strings d) :
    identityOf (decoded z d) = identityOf (decoded z (heartbeatOf d)) ↔
      (∀ k ∈ [Key.namespace_, Key.service, Key.host, Key.vpcID], (readAt d k).getD [] = cstr (strAt d k)) ∧
        atoi ((readAt d Key.port).getD []) = atoi (cstr (strAt d Key.port)) ∧
        (readAt d Key.token).getD [] ∈ [[], lit "polaris_php_sdk__" ++ cstr (strAt d Key.service)] := by
  have hsub : ∀ k ∈ heartbeatKeys, (decoded z (heartbeatOf d)).sub k = cstr (strAt d k) :=
    fun k hk => h.sub_heartbeatOf hk
  simp only [heartbeatKeys, List.forall_mem_cons, List.not_mem_nil, false_imp_iff, implies_true, and_true] at hsub
  obtain ⟨h1, h2, h3, h4, h5⟩ := hsub
  simp only [identityOf, Identity.mk.injEq, h1, h2, h3, h4, h5, h.tokenOf_heartbeatOf, List.forall_mem_cons,
    List.not_mem_nil, false_imp_iff, implies_true, and_true, ← hd.sub_decoded (z := z)]
  refine ⟨fun hx => ?_, fun hx => ?_⟩
  · obtain ⟨hns, hsv, htok, hhost, hport, hvpc⟩ := hx
    rw [← hsv] at htok
    refine ⟨⟨hns, hsv, hhost, hvpc⟩, hport, ?_⟩
    rw [← hsv]
    exact tokenOf_eq_iff.mp htok
  · obtain ⟨⟨hns, hsv, hhost, hvpc⟩, hport, htok⟩ := hx
    rw [← hsv] at htok
    exact ⟨hns, hsv, hsv ▸ tokenOf_eq_iff.mpr htok, hhost, hport, hvpc⟩

theorem oneIdentity_iff_identityOf (hs : Zval.Sound (.array d)) :
    OneIdentity z sdk d timeout flowId ↔ Operation.register.Reads z d ∧
      identityOf (decoded z d) = identityOf (decoded z (heartbeatOf d)) := by
  have hreg : ∀ id, HandsIdentity (Polaris.register z sdk (.array d) (.long timeout) (.long flowId)) id ↔
      Operation.register.Reads z d ∧ id = identityOf (decoded z d) :=
    fun id => sends_identity_iff hs (show Operation.register ∈ providerOps by decide) rfl
  have hdereg : ∀ id, HandsIdentity (Polaris.deregister z sdk (.array d) (.long timeout) (.long flowId)) id ↔
      Decodable z d ∧ id = identityOf (decoded z d) :=
    fun id => sends_identity_iff hs (show Operation.deregister ∈ providerOps by decide) rfl
  have hbeat : ∀ id, HandsIdentity (Polaris.heartbeat z sdk (fetchDim d Key.namespace_) (fetchDim d Key.service)
      (fetchDim d Key.host) (fetchDim d Key.port) (fetchDim d Key.vpcID)) id ↔
      Decodable z (heartbeatOf d) ∧ id = identityOf (decoded z (heartbeatOf d)) :=
    fun id => sends_identity_iff h.sound_heartbeatOf (show Operation.heartbeat ∈ providerOps by decide) rfl
  simp only [OneIdentity, hreg, hdereg, hbeat]
  refine ⟨fun hx => ?_, fun hx => ?_⟩
  · obtain ⟨id, ⟨hr, hid⟩, -, -, hid'⟩ := hx
    exact ⟨hr, hid.symm.trans hid'⟩
  · obtain ⟨hr, he⟩ := hx
    exact ⟨_, ⟨hr, rfl⟩, ⟨hr.decodable, rfl⟩, h.decodable_heartbeatOf, he⟩

theorem identityKept_iff_identityOf : IdentityKept z d ↔ Operation.register.Reads z d ∧
    identityOf (decoded z d) = identityOf (decoded z (heartbeatOf d)) := by
  refine ⟨fun hk => ?_, fun hx => ?_⟩
  · have hr : Operation.register.Reads z d :=
      (hk.strings.reads_iff z .register).mpr (List.forall_mem_singleton.mpr hk.flat)
    exact ⟨hr, (identityOf_eq_iff h hk.strings).mpr ⟨hk.read, hk.port, hk.token⟩⟩
  · obtain ⟨hr, he⟩ := hx
    have hd : Strings d := h.stringValued.decodable_iff.mp hr.decodable
    have hflat := (hd.reads_iff z .register).mp hr
    obtain ⟨hread, hport, htoken⟩ := (identityOf_eq_iff h hd).mp he
    exact ⟨hd, hflat _ (by decide), hread, hport, htoken⟩

end OneIdentity

/-- Among names without a NUL the token decides. -/
theorem identityKept_iff {z : Zend} {d : HashTable} (h : Description d) (hn : NamesNulFree d) :
    IdentityKept z d ↔ d.find? (.name (z.lookupName Key.metadata)) = none ∧
      cstr (strAt d Key.token) ∈ [[], lit "polaris_php_sdk__" ++ cstr (strAt d Key.service)] := by
  have hd : Strings d := by
    intro b hb
    obtain ⟨s, hs, -⟩ := hn b hb
    obtain ⟨t, ht⟩ := h.stringValued b hb
    exact ⟨s, t, Prod.ext hs ht⟩
  have hread : ∀ k, (readAt d k).getD [] = cstr (strAt d k) := by
    intro k
    rw [← hd.sub_decoded (z := z), hn.sub_decoded, strAt]
    cases hf : d.find? (.name k) with
    | none => rfl
    | some v =>
      obtain ⟨t, rfl⟩ := h.stringValued _ (Table.mem_of_find? hf)
      rfl
  refine ⟨fun hk => ?_, fun hx => ?_⟩
  · have ht := hk.token
    rw [hread] at ht
    exact ⟨hk.flat, ht⟩
  · obtain ⟨hflat, ht⟩ := hx
    exact ⟨hd, hflat, fun k _ => hread k, by rw [hread], by rw [hread]; exact ht⟩

/-- **One instance has one identity** exactly where its description has no
token of its own. -/
theorem oneIdentity_iff (z : Zend) (sdk : Sdk) {d : HashTable} (hs : Zval.Sound (.array d)) (h : Description d)
    (timeout flowId : Int64) : OneIdentity z sdk d timeout flowId ↔ IdentityKept z d := by
  rw [oneIdentity_iff_identityOf h hs, identityKept_iff_identityOf h]

/-- An instance of a service with a token. -/
def tokenInstance (token : Bytes) : HashTable :=
  arrayLiteral [(Key.namespace_, .str (lit "default")), (Key.service, .str (lit "cart")),
    (Key.host, .str (lit "10.0.0.1")), (Key.port, .str (lit "8080")), (Key.vpcID, .str []), (Key.token, .str token)]

section TokenInstance

variable (token : Bytes)

theorem live_tokenInstance : (tokenInstance token).live =
    [(.name Key.namespace_, .str (lit "default")), (.name Key.service, .str (lit "cart")),
      (.name Key.host, .str (lit "10.0.0.1")), (.name Key.port, .str (lit "8080")), (.name Key.vpcID, .str []),
      (.name Key.token, .str token)] :=
  live_arrayLiteral [Key.namespace_, Key.service, Key.host, Key.port, Key.vpcID, Key.token] rfl (by decide)

theorem sound_tokenInstance : Zval.Sound (.array (tokenInstance token)) := sound_arrayLiteral_str (by simp)

theorem find?_tokenInstance {k : Bytes} {v : Zval} (h : (ZKey.name k, v) ∈ (tokenInstance token).live) :
    (tokenInstance token).find? (.name k) = some v := (sound_tokenInstance token).of_array.find?_eq_some.mpr h

theorem description_tokenInstance : Description (tokenInstance token) := by
  refine ⟨fun b hb => ?_, fun k hk => ?_⟩
  · rw [live_tokenInstance] at hb
    simp only [List.mem_cons, List.not_mem_nil, or_false] at hb
    rcases hb with rfl | rfl | rfl | rfl | rfl | rfl <;> exact ⟨_, rfl⟩
  · simp only [heartbeatKeys, List.mem_cons, List.not_mem_nil, or_false] at hk
    rcases hk with rfl | rfl | rfl | rfl | rfl
    · exact ⟨.str (lit "default"), find?_tokenInstance token (by simp [live_tokenInstance])⟩
    · exact ⟨.str (lit "cart"), find?_tokenInstance token (by simp [live_tokenInstance])⟩
    · exact ⟨.str (lit "10.0.0.1"), find?_tokenInstance token (by simp [live_tokenInstance])⟩
    · exact ⟨.str (lit "8080"), find?_tokenInstance token (by simp [live_tokenInstance])⟩
    · exact ⟨.str [], find?_tokenInstance token (by simp [live_tokenInstance])⟩

theorem namesNulFree_tokenInstance : NamesNulFree (tokenInstance token) :=
  namesNulFree_arrayLiteral [Key.namespace_, Key.service, Key.host, Key.port, Key.vpcID, Key.token] rfl (by decide)
    (by decide)

theorem identityKept_tokenInstance :
    IdentityKept (Zend.reading .withoutNul none) (tokenInstance token) ↔
      cstr token ∈ [[], lit "polaris_php_sdk__cart"] := by
  have hflat : (tokenInstance token).find? (.name ((Zend.reading .withoutNul none).lookupName Key.metadata)) = none :=
    (namesNulFree_tokenInstance token).find?_cStr Key.metadata
  have htoken : strAt (tokenInstance token) Key.token = token := by
    rw [strAt, find?_tokenInstance token (show (ZKey.name Key.token, .str token) ∈ _ by simp [live_tokenInstance])]
  have hservice : strAt (tokenInstance token) Key.service = lit "cart" := by
    rw [strAt, find?_tokenInstance token (show (ZKey.name Key.service, .str (lit "cart")) ∈ _ by
      simp [live_tokenInstance])]
  rw [identityKept_iff (description_tokenInstance token) (namesNulFree_tokenInstance token), htoken, hservice]
  exact and_iff_right hflat

end TokenInstance

/-- An instance registered with the token `s3cret` is kept alive with another. -/
theorem oneIdentity_secret :
    ¬ ∀ (z : Zend) (sdk : Sdk) (d : HashTable) (timeout flowId : Int64), Zval.Sound (.array d) → Description d →
      OneIdentity z sdk d timeout flowId := by
  intro h
  have hone := h (Zend.reading .withoutNul none) Sdk.idle (tokenInstance (lit "s3cret")) 500 1 (sound_tokenInstance _)
    (description_tokenInstance _)
  rw [oneIdentity_iff_identityOf (description_tokenInstance _) (sound_tokenInstance _),
    ← identityKept_iff_identityOf (description_tokenInstance _), identityKept_tokenInstance] at hone
  exact absurd hone (by decide)

/-- One with an empty token keeps its identity. -/
theorem oneIdentity_empty :
    OneIdentity (Zend.reading .withoutNul none) Sdk.idle (tokenInstance []) 500 1 :=
  (oneIdentity_iff _ Sdk.idle (sound_tokenInstance []) (description_tokenInstance []) 500 1).mpr
    ((identityKept_tokenInstance []).mpr (by decide))

end PolarisPhp
