/-
What a discovery reply says of the instances. It lists them in the SDK's
order under 0, 1, … (`find?_instances`), each with the attributes
`convertInstanceToArray` writes (`instance_attribute`), from which a report
of a call gives back the host and the port (`report_hostPort`). The id is
not among them, so no instance is identified (`identified_iff`).
-/
import PolarisPhp.Replies

namespace PolarisPhp

open Bytes Decimal

/-- The attributes an instance's entry holds, strings up to their first NUL. -/
def writtenAttributes (inst : Instance) : List (Bytes × Zval) :=
  [(Key.host, .str (cstr inst.host)), (Key.containerName, .str (cstr inst.containerName)),
    (Key.internalSetName, .str (cstr inst.internalSetName)), (Key.logicSet, .str (cstr inst.logicSet)),
    (Key.region, .str (cstr inst.region)), (Key.zone, .str (cstr inst.zone)),
    (Key.campus, .str (cstr inst.campus)), (Key.vpcID, .str (cstr inst.vpcId)),
    (Key.protocol, .str (cstr inst.protocol)), (Key.version, .str (cstr inst.version)),
    (Key.port, .long inst.port.toInt64), (Key.weight, .long inst.weight.toUInt64.toInt64),
    (Key.priority, .long inst.priority.toInt64), (Key.dynamicWeight, .long inst.dynamicWeight.toUInt64.toInt64),
    (Key.hashKey, .long inst.hash.toInt64), (Key.localityAwareInfo, .long inst.localityAwareInfo.toInt64),
    (Key.healthy, .bool inst.healthy), (Key.isolate, .bool inst.isolate),
    (Key.metadata, .array (transferMapToArray inst.metadata))]

/-- The keys of an instance's entry. -/
def writtenKeys : List Bytes :=
  [Key.host, Key.containerName, Key.internalSetName, Key.logicSet, Key.region, Key.zone, Key.campus, Key.vpcID,
    Key.protocol, Key.version, Key.port, Key.weight, Key.priority, Key.dynamicWeight, Key.hashKey,
    Key.localityAwareInfo, Key.healthy, Key.isolate, Key.metadata]

theorem convertInstanceToArray_eq (inst : Instance) :
    convertInstanceToArray inst = arrayLiteral (writtenAttributes inst) := by
  have hk : ∀ k ∈ writtenKeys, cstr k = k := by decide
  simp only [writtenKeys, List.forall_mem_cons, List.not_mem_nil, false_imp_iff, implies_true, and_true] at hk
  obtain ⟨h1, h2, h3, h4, h5, h6, h7, h8, h9, h10, h11, h12, h13, h14, h15, h16, h17, h18, h19⟩ := hk
  simp only [convertInstanceToArray, addAssocString, addAssocLong, addAssocBool, addAssocZval, h1, h2, h3, h4, h5,
    h6, h7, h8, h9, h10, h11, h12, h13, h14, h15, h16, h17, h18, h19, arrayLiteral, writtenAttributes,
    List.foldl_cons, List.foldl_nil]

theorem plain_writtenKeys : writtenKeys.Nodup ∧ ∀ k ∈ writtenKeys, symtableKey k = .name k := by decide

/-- Every attribute is found under its key. -/
theorem instance_attribute {inst : Instance} {k : Bytes} {v : Zval} (h : (k, v) ∈ writtenAttributes inst) :
    (convertInstanceToArray inst).find? (.name k) = some v := by
  rw [convertInstanceToArray_eq]
  exact find?_arrayLiteral writtenKeys rfl plain_writtenKeys h

/-- There is nothing else in the entry. -/
theorem instance_other {inst : Instance} {k : Bytes} (h : k ∉ writtenKeys) :
    (convertInstanceToArray inst).find? (.name k) = none := by
  rw [convertInstanceToArray_eq]
  exact find?_arrayLiteral_none writtenKeys rfl plain_writtenKeys h

/-- The instances stand in the SDK's order, under 0, 1, … -/
theorem find?_instances (resp : InstancesResponse) :
    (convertServiceResponseToZval resp).find? (.name Key.instances) =
      some (.array (packed (resp.instances.map fun inst => .array (convertInstanceToArray inst)))) := by
  have hk : symtableKey (cstr Key.instances) = .name Key.instances := by decide
  simp only [convertServiceResponseToZval]
  rw [find?_addAssocZval_name hk, if_pos rfl, foldl_addNextIndexZval fun inst => .array (convertInstanceToArray inst)]

/-! ## Reports -/

/-- The report a script makes of an entry it was given: the id, the host and
the port, cast to strings. -/
def reportOf (z : Zend) (e : HashTable) : HashTable :=
  arrayLiteral [(Key.instanceID, .str (castString z (fetchDim e Key.instanceID))),
    (Key.host, .str (castString z (fetchDim e Key.host))), (Key.port, .str (castString z (fetchDim e Key.port)))]

section Report

variable (z : Zend) (e : HashTable)

theorem sound_reportOf : Zval.Sound (.array (reportOf z e)) := sound_arrayLiteral_str (by simp)

theorem namesNulFree_reportOf : NamesNulFree (reportOf z e) :=
  namesNulFree_arrayLiteral [Key.instanceID, Key.host, Key.port] rfl (by decide) (by decide)

theorem decodable_reportOf : Decodable z (reportOf z e) :=
  (decodable_arrayLiteral_iff [Key.instanceID, Key.host, Key.port] rfl (by decide)).mpr (by simp)

theorem findEntry_reportOf {k : Bytes} (h : k ∉ [Key.instanceID, Key.host, Key.port]) :
    findEntry z (reportOf z e) k = none :=
  findEntry_eq_none (namesNulFree_reportOf z e) fun _ =>
    find?_arrayLiteral_none [Key.instanceID, Key.host, Key.port] rfl (by decide) h

theorem sub_reportOf {k : Bytes} (h : k ∈ [Key.instanceID, Key.host, Key.port]) :
    (decoded z (reportOf z e)).sub k = cstr (castString z (fetchDim e k)) := by
  have hf : (reportOf z e).find? (.name k) = some (.str (castString z (fetchDim e k))) := by
    refine find?_arrayLiteral [Key.instanceID, Key.host, Key.port] rfl (by decide) ?_
    simp only [List.mem_cons, List.not_mem_nil, or_false] at h
    rcases h with rfl | rfl | rfl <;> simp
  rw [(namesNulFree_reportOf z e).sub_decoded, hf]
  rfl

/-- The report reaches the SDK with what the entry says. -/
theorem serviceCallResult_reportOf :
    ∃ req, serviceCallResult z (.array (reportOf z e)) = .ok req ∧
      req.instanceId = cstr (castString z (fetchDim e Key.instanceID)) ∧
      req.host = cstr (castString z (fetchDim e Key.host)) ∧
      req.port = atoi (cstr (castString z (fetchDim e Key.port))) := by
  have hmem : ∀ k ∈ [Key.instanceID, Key.host, Key.port], (decoded z (reportOf z e)).sub k =
      cstr (castString z (fetchDim e k)) := fun k hk => sub_reportOf z e hk
  simp only [List.forall_mem_cons, List.not_mem_nil, false_imp_iff, implies_true, and_true] at hmem
  obtain ⟨hid, hhost, hport⟩ := hmem
  refine ⟨serviceCallResultOf (decoded z (reportOf z e)) ∅ ∅, ?_, ?_, ?_, ?_⟩
  · exact (serviceCallResult_eq_ok (sound_reportOf z e)).mpr ⟨decodable_reportOf z e, ∅, ∅,
      .inl ⟨findEntry_reportOf z e (by decide), rfl⟩, .inl ⟨findEntry_reportOf z e (by decide), rfl⟩,
      .inl ⟨findEntry_reportOf z e (by decide), rfl⟩⟩
  · simp only [serviceCallResultOf, hid]
  · simp only [serviceCallResultOf, hhost]
  · simp only [serviceCallResultOf, hport]

end Report

/-- A report of `e` gives the SDK the id, the host and the port of `inst`. -/
def Reports (z : Zend) (sdk : Sdk) (e : HashTable) (inst : Instance) : Prop :=
  ∀ timeout flowId returnVal, ∃ req,
    Hands (doUpdateServiceCallResult z sdk (.array (reportOf z e)) timeout flowId returnVal)
      (.updateServiceCallResult req) ∧
    req.instanceId = inst.id ∧ req.host = inst.host ∧ req.port = inst.port

theorem fetchDim_attribute {inst : Instance} {k : Bytes} {v : Zval} (hk : symtableKey k = .name k)
    (h : (k, v) ∈ writtenAttributes inst) : fetchDim (convertInstanceToArray inst) k = v := by
  rw [fetchDim, hk, instance_attribute h]
  rfl

theorem fetchDim_instanceID (inst : Instance) : fetchDim (convertInstanceToArray inst) Key.instanceID = .null := by
  have hk : symtableKey Key.instanceID = .name Key.instanceID := by decide
  rw [fetchDim, hk, instance_other (by decide)]
  rfl

/-- A report of an instance's entry names its host and its port, and no id. -/
theorem report_hostPort (z : Zend) {inst : Instance} (h : NulFree inst.host) :
    ∃ req, serviceCallResult z (.array (reportOf z (convertInstanceToArray inst))) = .ok req ∧
      req.instanceId = [] ∧ req.host = inst.host ∧ req.port = inst.port := by
  obtain ⟨req, hr, hid, hhost, hport⟩ := serviceCallResult_reportOf z (convertInstanceToArray inst)
  have hh : fetchDim (convertInstanceToArray inst) Key.host = .str (cstr inst.host) :=
    fetchDim_attribute (by decide) (by simp [writtenAttributes])
  have hp : fetchDim (convertInstanceToArray inst) Key.port = .long inst.port.toInt64 :=
    fetchDim_attribute (by decide) (by simp [writtenAttributes])
  refine ⟨req, hr, ?_, ?_, ?_⟩
  · rw [hid, fetchDim_instanceID]
    rfl
  · rw [hhost, hh, castString, cstr_cstr, h.cstr]
  · rw [hport, hp, castString, (nulFree_spell _).cstr, Int32.toInt_toInt64, atoi_spell]

/-! ## Identity -/

/-- The attributes documented for an instance. -/
def documentedAttributes (inst : Instance) : List (Bytes × Zval) :=
  [(Key.instanceID, .str inst.id), (Key.host, .str inst.host), (Key.port, .long inst.port.toInt64),
    (Key.containerName, .str inst.containerName), (Key.internalSetName, .str inst.internalSetName),
    (Key.logicSet, .str inst.logicSet), (Key.region, .str inst.region), (Key.zone, .str inst.zone),
    (Key.campus, .str inst.campus), (Key.vpcID, .str inst.vpcId), (Key.protocol, .str inst.protocol),
    (Key.version, .str inst.version), (Key.weight, .long inst.weight.toUInt64.toInt64),
    (Key.priority, .long inst.priority.toInt64), (Key.dynamicWeight, .long inst.dynamicWeight.toUInt64.toInt64),
    (Key.hashKey, .long inst.hash.toInt64), (Key.localityAwareInfo, .long inst.localityAwareInfo.toInt64),
    (Key.healthy, .bool inst.healthy), (lit "isola", .bool inst.isolate),
    (Key.metadata, .array (transferMapToArray inst.metadata))]

/-- The table `t` of a reply lists the instances in order, each entry with
every documented attribute; a report of an entry names its instance, and
instances with equal entries have equal ids. -/
structure Identifies (z : Zend) (sdk : Sdk) (instances : List Instance) (t : HashTable) : Prop where
  listed : t.live.map Prod.fst = (List.range instances.length).map fun i : Nat => ZKey.index i
  entries : ∀ (i : Nat) (inst : Instance), instances[i]? = some inst → ∃ e, t.find? (.index i) = some (.array e) ∧
    (∀ p ∈ documentedAttributes inst, e.find? (.name p.1) = some p.2) ∧ Reports z sdk e inst
  distinct : ∀ (i j : Nat) (inst inst' : Instance) (e : HashTable), instances[i]? = some inst →
    instances[j]? = some inst' → t.find? (.index i) = some (.array e) → t.find? (.index j) = some (.array e) →
      inst.id = inst'.id

/-- The reply identifies every instance of the response. -/
def Identified (z : Zend) (sdk : Sdk) (resp : InstancesResponse) : Prop :=
  ∃ t, (convertServiceResponseToZval resp).find? (.name Key.instances) = some (.array t) ∧
    Identifies z sdk resp.instances t

theorem entry_of_instances {resp : InstancesResponse} {t : HashTable}
    (h : (convertServiceResponseToZval resp).find? (.name Key.instances) = some (.array t)) {i : Nat}
    {inst : Instance} (hi : resp.instances[i]? = some inst) :
    t.find? (.index i) = some (.array (convertInstanceToArray inst)) := by
  rw [find?_instances] at h
  cases h
  rw [find?_packed, List.getElem?_map, hi]
  rfl

theorem not_identified {z : Zend} {sdk : Sdk} {resp : InstancesResponse} {inst : Instance}
    (hi : resp.instances[0]? = some inst) : ¬ Identified z sdk resp := by
  rintro ⟨t, ht, h⟩
  obtain ⟨e, he, hdoc, -⟩ := h.entries 0 inst hi
  have he' : e = convertInstanceToArray inst :=
    Zval.array.inj (Option.some.inj (he.symm.trans (entry_of_instances ht hi)))
  have hid : e.find? (.name Key.instanceID) = some (.str inst.id) := hdoc (_, _) List.mem_cons_self
  have hno : e.find? (.name Key.instanceID) = none := by
    rw [he']
    exact instance_other (by decide)
  rw [hno] at hid
  simp at hid

/-- **A discovery reply identifies its instances** exactly when there are none. -/
theorem identified_iff (z : Zend) (sdk : Sdk) (resp : InstancesResponse) :
    Identified z sdk resp ↔ resp.instances = [] := by
  constructor
  · intro h
    cases hl : resp.instances with
    | nil => rfl
    | cons inst l =>
      have hi : resp.instances[0]? = some inst := by simp [hl]
      exact absurd h (not_identified hi)
  · intro h
    refine ⟨_, find?_instances resp, ?_⟩
    rw [h]
    exact ⟨rfl, fun i inst hi => by simp at hi, fun i j inst inst' e hi => by simp at hi⟩

/-- No string of an instance holds a NUL. -/
def Instance.NulFree (inst : Instance) : Prop :=
  (∀ s ∈ [inst.id, inst.host, inst.vpcId, inst.protocol, inst.version, inst.containerName, inst.internalSetName,
    inst.logicSet, inst.region, inst.zone, inst.campus], Bytes.NulFree s) ∧
  ∀ p ∈ inst.metadata.toList, Bytes.NulFree p.1 ∧ Bytes.NulFree p.2

/-- No string of a response holds a NUL. -/
def InstancesResponse.NulFree (resp : InstancesResponse) : Prop :=
  (∀ s ∈ [resp.serviceName, resp.serviceNamespace, resp.revision], Bytes.NulFree s) ∧
  (∀ p ∈ resp.metadata.toList ++ resp.subset.toList, Bytes.NulFree p.1 ∧ Bytes.NulFree p.2) ∧
  ∀ inst ∈ resp.instances, inst.NulFree

/-- Instances that differ in their ids only have one entry between them. -/
theorem convertInstanceToArray_id (inst : Instance) (id : Bytes) :
    convertInstanceToArray { inst with id := id } = convertInstanceToArray inst := rfl

/-- An instance at `10.0.0.1:8080`. -/
def someInstance : Instance where
  id := lit "i-1"
  host := lit "10.0.0.1"
  port := 8080
  vpcId := []
  weight := 100
  protocol := []
  version := []
  priority := 0
  healthy := true
  isolate := false
  metadata := ∅
  containerName := []
  internalSetName := []
  logicSet := []
  dynamicWeight := 100
  region := []
  zone := []
  campus := []
  hash := 0
  localityAwareInfo := 0

def someResponse : InstancesResponse where
  flowId := 1
  serviceName := lit "cart"
  serviceNamespace := lit "default"
  metadata := ∅
  weightType := .kStaticWeightType
  revision := []
  instances := [someInstance]
  subset := ∅

theorem nulFree_someResponse : someResponse.NulFree := by
  refine ⟨by decide, by decide, fun inst hi => ?_⟩
  rw [List.mem_singleton.mp hi]
  exact ⟨by decide, by decide⟩

/-- The entry of the instance `i-1` does not hold its id. -/
theorem identified_someResponse :
    ¬ ∀ (z : Zend) (sdk : Sdk) (resp : InstancesResponse), resp.NulFree → Identified z sdk resp := by
  intro h
  have hi : someResponse.instances[0]? = some someInstance := rfl
  exact not_identified hi (h (Zend.reading .withoutNul none) Sdk.idle someResponse nulFree_someResponse)

end PolarisPhp
