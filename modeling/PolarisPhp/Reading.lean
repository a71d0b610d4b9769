/-
What a script can tell of the SDK's responses. A map comes to it as a
listing of the entries it can see (`transferMapToArray_eq_listing`), and two
responses give one array exactly when what is visible of them is the same
(`convertServiceResponseToZval_inj`). So replies tell apart just the answers
that differ in their visible part (`instancesReply_inj`), and no run of a
script tells apart SDKs that never do (`indistinguishable`).
-/
import PolarisPhp.Instances
import PolarisPhp.Lib.LastWins
import PolarisPhp.Process
import PolarisPhp.RoundTrip

namespace PolarisPhp

open Bytes FirstWins LastWins

/-! ## Maps -/

/-- The entries of a map that PHP sees: those with a key, as C strings. Of
keys that are one C string the last counts. -/
def seen (m : StdMap) : StdMap := lastWins compare ((keptEntries m).map fun p => (cstr p.1, cstr p.2))

theorem symtableKey_injective : Function.Injective symtableKey := by
  intro s t h
  unfold symtableKey at h
  cases hs : handleNumericStr s with
  | none =>
    cases ht : handleNumericStr t with
    | none => simpa only [hs, ht, ZKey.name.injEq] using h
    | some n => simp [hs, ht] at h
  | some n =>
    cases ht : handleNumericStr t with
    | none => simp [hs, ht] at h
    | some m =>
      simp only [hs, ht, ZKey.index.injEq] at h
      rw [(handleNumericStr_eq_some.mp hs).1, (handleNumericStr_eq_some.mp ht).1, h]

/-- The array of a map lists what PHP sees of it. -/
theorem transferMapToArray_eq_listing (m : StdMap) : transferMapToArray m = listing symtableKey Zval.str (seen m) := by
  have hsorted : ((keptEntries m).map fun p => (cstr p.1, cstr p.2)).Pairwise fun a b => compare a.1 b.1 ≠ .gt := by
    refine List.pairwise_map.mpr ?_
    refine (m.ordered_keys_toList.sublist List.filter_sublist).imp fun hlt => cstr_mono ?_
    rw [hlt]
    nofun
  rw [seen, ← ofList_eq_listing symtableKey_injective hsorted, transferMapToArray_eq_ofList, List.map_map]
  rfl

theorem transferMapToArray_inj {m m' : StdMap} : transferMapToArray m = transferMapToArray m' ↔ seen m = seen m' := by
  rw [transferMapToArray_eq_listing, transferMapToArray_eq_listing]
  exact listing_inj symtableKey_injective fun s t h => Zval.str.inj h

/-! ## The trip through PHP -/

theorem nulFree_of_seen {m : StdMap} {k v : Bytes} (h : (seen m)[k]? = some v) : NulFree k ∧ NulFree v := by
  have hfind : (transferMapToArray m).find? (symtableKey k) = some (.str v) := by
    rw [transferMapToArray_eq_listing, find?_listing symtableKey_injective, h]
    rfl
  rw [transferMapToArray_eq_ofList] at hfind
  obtain ⟨p, -, he⟩ := List.mem_map.mp (Table.mem_of_live_ofList (Table.mem_of_find? hfind))
  obtain ⟨hk, hv⟩ := Prod.mk.inj he
  rw [← symtableKey_injective hk, ← Zval.str.inj hv]
  exact ⟨nulFree_cstr _, nulFree_cstr _⟩

/-- A row of buckets that holds strings stops the decoder at a key that is none. -/
theorem foldlM_insertBucket_str (z : Zend) (l : List (Bytes × Bytes)) (m : StdMap) :
    (l.map fun p => (symtableKey p.1, Zval.str p.2)).foldlM (insertBucket z) m =
      if ∃ p ∈ l, SpellsIndex p.1 then .error .nullKey
      else .ok ((l.map fun p => (cstr p.1, cstr p.2)).foldl (fun m p => m.insertIfNew p.1 p.2) m) := by
  induction l generalizing m with
  | nil => simp [pure, Except.pure]
  | cons p l ih =>
    rw [List.map_cons, List.foldlM_cons]
    by_cases hp : SpellsIndex p.1
    · obtain ⟨n, hn⟩ := symtableKey_of_spells hp
      rw [hn, if_pos ⟨p, List.mem_cons_self, hp⟩]
      rfl
    · rw [symtableKey_of_not_spells hp]
      have hiff : (∃ q ∈ p :: l, SpellsIndex q.1) ↔ ∃ q ∈ l, SpellsIndex q.1 := by simp [hp]
      simp only [hiff]
      exact ih _

/-- **What becomes of a map that is handed out and back**, for every map: the
entries PHP sees of it come back, or, where one of their keys spells an
integer, nothing. -/
theorem trip_eq (z : Zend) (m : StdMap) : transferToStdMap z (transferMapToArray m) =
    if ∃ p ∈ (seen m).toList, SpellsIndex p.1 then .error .nullKey else .ok (seen m) := by
  have hback : firstWins compare ((seen m).toList.map fun p => (cstr p.1, cstr p.2)) = seen m := by
    have hsame : ((seen m).toList.map fun p => (cstr p.1, cstr p.2)) = (seen m).toList := by
      refine (List.map_congr_left fun p hp => ?_).trans (List.map_id _)
      obtain ⟨hk, hv⟩ := nulFree_of_seen (Std.ExtTreeMap.mem_toList_iff_getElem?_eq_some.mp hp)
      rw [hk.cstr, hv.cstr]
      rfl
    rw [hsame]
    refine ext_iff_bindings.mpr fun k v => ?_
    rw [getElem?_firstWins_nodup (nodup_toList _), Std.ExtTreeMap.mem_toList_iff_getElem?_eq_some]
  have hcount : HashTable.nNumOfElements (listing symtableKey Zval.str (seen m)) = (seen m).size := rfl
  rw [transferMapToArray_eq_listing]
  by_cases h0 : (seen m).size = 0
  · have hnil : (seen m).toList = [] := List.length_eq_zero_iff.mp (Std.ExtTreeMap.length_toList.trans h0)
    have hempty : seen m = ∅ := Std.ExtTreeMap.toList_eq_nil_iff.mp hnil
    simp only [hnil, List.not_mem_nil, false_and, exists_false, if_false]
    rw [transferToStdMap, hcount, if_pos h0, hempty]
  · rw [transferToStdMap_eq_foldlM (hcount ▸ h0), live_listing, foldlM_insertBucket_str]
    exact if_congr Iff.rfl rfl (congrArg Except.ok hback)

/-! ## Instances -/

/-- Literals under the same plain keys are equal where their values are. -/
theorem arrayLiteral_inj {l l' : List (Bytes × Zval)} (keys : List Bytes) (hl : l.map Prod.fst = keys)
    (hl' : l'.map Prod.fst = keys) (hk : keys.Nodup ∧ ∀ k ∈ keys, symtableKey k = .name k) :
    arrayLiteral l = arrayLiteral l' ↔ l = l' := by
  refine ⟨fun h => ?_, fun h => h ▸ rfl⟩
  have hlive := congrArg Table.live h
  rw [live_arrayLiteral keys hl hk, live_arrayLiteral keys hl' hk] at hlive
  refine (List.map_injective_iff.mpr ?_) hlive
  rintro ⟨k, v⟩ ⟨k', v'⟩ he
  obtain ⟨hk, hv⟩ := Prod.mk.inj he
  exact Prod.ext (ZKey.name.inj hk) hv

/-- What a script can tell of an instance: all but its id. -/
def Instance.visible (inst : Instance) : Instance where
  id := []
  host := cstr inst.host
  port := inst.port
  vpcId := cstr inst.vpcId
  weight := inst.weight
  protocol := cstr inst.protocol
  version := cstr inst.version
  priority := inst.priority
  healthy := inst.healthy
  isolate := inst.isolate
  metadata := seen inst.metadata
  containerName := cstr inst.containerName
  internalSetName := cstr inst.internalSetName
  logicSet := cstr inst.logicSet
  dynamicWeight := inst.dynamicWeight
  region := cstr inst.region
  zone := cstr inst.zone
  campus := cstr inst.campus
  hash := inst.hash
  localityAwareInfo := inst.localityAwareInfo

theorem int32_toInt64_inj {n n' : Int32} : n.toInt64 = n'.toInt64 ↔ n = n' := by
  rw [← Int64.toInt_inj, Int32.toInt_toInt64, Int32.toInt_toInt64, Int32.toInt_inj]

theorem uint64_toInt64_inj {n n' : UInt64} : n.toInt64 = n'.toInt64 ↔ n = n' :=
  ⟨fun h => by rw [← n.toUInt64_toInt64, h, n'.toUInt64_toInt64], fun h => h ▸ rfl⟩

theorem convertInstanceToArray_inj {inst inst' : Instance} :
    convertInstanceToArray inst = convertInstanceToArray inst' ↔ inst.visible = inst'.visible := by
  rw [convertInstanceToArray_eq, convertInstanceToArray_eq, arrayLiteral_inj writtenKeys rfl rfl plain_writtenKeys]
  simp only [writtenAttributes, Instance.visible, List.cons.injEq, Prod.mk.injEq, true_and, Zval.str.injEq,
    Zval.long.injEq, Zval.bool.injEq, Zval.array.injEq, transferMapToArray_inj, int32_toInt64_inj,
    uint64_toInt64_inj, UInt32.toUInt64_inj, and_true, Instance.mk.injEq]
  tauto

/-! ## Responses -/

theorem packed_inj {l l' : List Zval} : packed l = packed l' ↔ l = l' := by
  refine ⟨fun h => List.ext_getElem? fun i => ?_, fun h => h ▸ rfl⟩
  rw [← find?_packed, h, find?_packed]

/-- The fields of a response's entry. -/
def writtenFields (resp : InstancesResponse) : List (Bytes × Zval) :=
  [(Key.flowId, .long resp.flowId.toInt64), (Key.service, .str (cstr resp.serviceName)),
    (Key.namespace_, .str (cstr resp.serviceNamespace)), (Key.revision, .str (cstr resp.revision)),
    (Key.weightTypeStr, .str (convertWeigthTypeForString resp.weightType)),
    (Key.metadata, .array (transferMapToArray resp.metadata)),
    (Key.serviceSubSet, .array (transferMapToArray resp.subset)),
    (Key.instances, .array (packed (resp.instances.map fun inst => .array (convertInstanceToArray inst))))]

/-- The keys of a response's entry. -/
def fieldKeys : List Bytes :=
  [Key.flowId, Key.service, Key.namespace_, Key.revision, Key.weightTypeStr, Key.metadata, Key.serviceSubSet,
    Key.instances]

theorem convertServiceResponseToZval_eq (resp : InstancesResponse) :
    convertServiceResponseToZval resp = arrayLiteral (writtenFields resp) := by
  have hk : ∀ k ∈ fieldKeys, cstr k = k := by decide
  simp only [fieldKeys, List.forall_mem_cons, List.not_mem_nil, false_imp_iff, implies_true, and_true] at hk
  obtain ⟨h1, h2, h3, h4, h5, h6, h7, h8⟩ := hk
  have hw : cstr (convertWeigthTypeForString resp.weightType) = convertWeigthTypeForString resp.weightType := by
    cases resp.weightType <;> decide
  simp only [convertServiceResponseToZval, addAssocString, addAssocLong, addAssocZval, h1, h2, h3, h4, h5, h6, h7, h8,
    hw, foldl_addNextIndexZval fun inst => .array (convertInstanceToArray inst), arrayLiteral, writtenFields,
    List.foldl_cons, List.foldl_nil]

theorem plain_fieldKeys : fieldKeys.Nodup ∧ ∀ k ∈ fieldKeys, symtableKey k = .name k := by decide

/-- What a script can tell of a response. -/
def InstancesResponse.visible (resp : InstancesResponse) : InstancesResponse where
  flowId := resp.flowId
  serviceName := cstr resp.serviceName
  serviceNamespace := cstr resp.serviceNamespace
  metadata := seen resp.metadata
  weightType := resp.weightType
  revision := cstr resp.revision
  instances := resp.instances.map Instance.visible
  subset := seen resp.subset

theorem convertWeigthTypeForString_inj {t t' : WeightType} :
    convertWeigthTypeForString t = convertWeigthTypeForString t' ↔ t = t' := by
  cases t <;> cases t' <;> decide

theorem map_convertInstanceToArray_inj {l l' : List Instance} :
    (l.map fun inst => Zval.array (convertInstanceToArray inst)) = l'.map (fun inst => .array (convertInstanceToArray inst)) ↔
      l.map Instance.visible = l'.map Instance.visible := by
  induction l generalizing l' with
  | nil => cases l' <;> simp
  | cons inst l ih =>
    cases l' with
    | nil => simp
    | cons inst' l' => simp only [List.map_cons, List.cons.injEq, Zval.array.injEq, convertInstanceToArray_inj, ih]

/-- **A response's array tells its visible part**, and nothing else. -/
theorem convertServiceResponseToZval_inj {resp resp' : InstancesResponse} :
    convertServiceResponseToZval resp = convertServiceResponseToZval resp' ↔ resp.visible = resp'.visible := by
  rw [convertServiceResponseToZval_eq, convertServiceResponseToZval_eq, arrayLiteral_inj fieldKeys rfl rfl plain_fieldKeys]
  simp only [writtenFields, InstancesResponse.visible, List.cons.injEq, Prod.mk.injEq, true_and, Zval.str.injEq,
    Zval.long.injEq, Zval.array.injEq, transferMapToArray_inj, uint64_toInt64_inj, convertWeigthTypeForString_inj,
    packed_inj, map_convertInstanceToArray_inj, and_true, InstancesResponse.mk.injEq]
  tauto

/-! ## Replies -/

/-- What a script learns of the outcome of a query, where it does not stop. -/
def Outcome.told (o : Outcome InstancesResponse) : Except Stop (ReturnCode × Option InstancesResponse) :=
  if o.code = .kReturnOk then
    match o.resp with
    | .response resp => .ok (o.code, some resp.visible)
    | .nullptr => .error .nullPtr
    | .untouched => .error .uninit
  else .ok (o.code, none)

theorem value_inj {c c' : ReturnCode} : c.value = c'.value ↔ c = c' := by
  refine ⟨fun h => ?_, fun h => h ▸ rfl⟩
  cases c <;> cases c' <;> first | rfl | exact absurd h (by decide)

section Reply

variable {sdk : Sdk}

/-- A reply tells its code. -/
theorem addCode_code {c c' : ReturnCode} {ht ht' : HashTable} (h : addCode sdk c ht = addCode sdk c' ht') : c = c' := by
  have hf := congrArg (Table.find? · (.name Key.code)) h
  simp only [find?_addCode_code, Option.some.injEq, Zval.long.injEq] at hf
  exact value_inj.mp hf

/-- And its response. -/
theorem addCode_response {c c' : ReturnCode} {a a' : HashTable}
    (h : addCode sdk c (addAssocZval Table.empty Key.getResponse (.array a)) =
      addCode sdk c' (addAssocZval Table.empty Key.getResponse (.array a'))) : a = a' := by
  have hk : symtableKey (cstr Key.getResponse) = .name Key.getResponse := by decide
  have hf := congrArg (Table.find? · (.name Key.getResponse)) h
  simp only [find?_addCode_other _ _ _ response_ne.1 response_ne.2, find?_addAssocZval_name hk, if_true,
    Option.some.injEq, Zval.array.injEq] at hf
  exact hf

/-- What the end of a query tells is what the SDK told. -/
theorem instancesReply_inj {o o' : Outcome InstancesResponse} :
    instancesReply sdk Table.empty o = instancesReply sdk Table.empty o' ↔ o.told = o'.told := by
  obtain ⟨c, r⟩ := o
  obtain ⟨c', r'⟩ := o'
  unfold instancesReply Outcome.told
  dsimp only
  by_cases hc : c = .kReturnOk
  · by_cases hc' : c' = .kReturnOk
    · subst hc hc'
      simp only [if_true]
      cases r with
      | nullptr | untouched => cases r' <;> simp
      | response resp =>
        cases r' with
        | nullptr | untouched => simp
        | response resp' =>
          simp only [Except.ok.injEq, Prod.mk.injEq, true_and, Option.some.injEq, ← convertServiceResponseToZval_inj]
          exact ⟨addCode_response, fun h => by rw [h]⟩
    · rw [if_pos hc, if_neg hc', if_pos hc, if_neg hc']
      cases r with
      | nullptr | untouched => simp
      | response resp =>
        refine iff_of_false (fun h => hc' ?_) (by simp)
        rw [← addCode_code (Except.ok.inj h), hc]
  · by_cases hc' : c' = .kReturnOk
    · rw [if_neg hc, if_pos hc', if_neg hc, if_pos hc']
      cases r' with
      | nullptr | untouched => simp
      | response resp =>
        refine iff_of_false (fun h => hc ?_) (by simp)
        rw [addCode_code (Except.ok.inj h), hc']
    · rw [if_neg hc, if_neg hc', if_neg hc, if_neg hc']
      refine ⟨fun h => ?_, fun h => ?_⟩
      · rw [addCode_code (Except.ok.inj h)]
      · obtain ⟨rfl, -⟩ := Prod.mk.inj (Except.ok.inj h)
        rfl

end Reply

/-- What a script learns of the outcome of `getQuota`: of a quota that is
granted or refused, nothing. -/
def Outcome.toldQuota (o : Outcome QuotaResponse) : Except Stop ReturnCode :=
  if o.code = .kReturnOk then
    match o.resp with
    | .nullptr => .ok o.code
    | .response _ | .untouched => .error .uninit
  else .ok o.code

theorem quotaReply_eq (sdk : Sdk) (o : Outcome QuotaResponse) :
    quotaReply sdk Table.empty o = o.toldQuota.map fun c => addCode sdk c Table.empty := by
  unfold quotaReply Outcome.toldQuota
  by_cases hc : o.code = .kReturnOk
  · rw [if_pos hc, if_pos hc]
    cases o.resp <;> rfl
  · rw [if_neg hc, if_neg hc]
    rfl

/-! ## Runs -/

/-- SDKs that tell a script the same. -/
structure Sdk.Alike (sdk sdk' : Sdk) : Prop where
  getOneInstance : ∀ req, (sdk.getOneInstance req).told = (sdk'.getOneInstance req).told
  getInstances : ∀ req, (sdk.getInstances req).told = (sdk'.getInstances req).told
  getAllInstances : ∀ req, (sdk.getAllInstances req).told = (sdk'.getAllInstances req).told
  getQuota : ∀ req, (sdk.getQuota req).toldQuota = (sdk'.getQuota req).toldQuota
  /-- but for these, their answers are the same -/
  rest : { sdk with
    getOneInstance := sdk'.getOneInstance
    getInstances := sdk'.getInstances
    getAllInstances := sdk'.getAllInstances
    getQuota := sdk'.getQuota } = sdk'

/-- Inputs that differ in SDKs that are alike. -/
inductive Input.Alike : Input → Input → Prop
  | create : Input.Alike .create .create
  | release : Input.Alike .release .release
  | call {sdk sdk' args m} : sdk.Alike sdk' → Input.Alike (.call ⟨sdk, args, m⟩) (.call ⟨sdk', args, m⟩)

/-- What a served call shows: the call made, and the answer. -/
def Served.shown (s : Served) : SdkCall × Except Stop HashTable := (s.call, s.reply)

section Queries

variable {z : Zend} {sdk : Sdk} {one : GetOneInstanceRequest → Outcome InstancesResponse}
  {some all : GetInstancesRequest → Outcome InstancesResponse} {quota : QuotaRequest → Outcome QuotaResponse}
  (hone : ∀ req, (sdk.getOneInstance req).told = (one req).told)
  (hsome : ∀ req, (sdk.getInstances req).told = (some req).told)
  (hall : ∀ req, (sdk.getAllInstances req).told = (all req).told)
  (hquota : ∀ req, (sdk.getQuota req).toldQuota = (quota req).toldQuota)
include hone hsome hall hquota

theorem serve_alike (op : Operation) (reqVal : Zval) (timeout flowId : UInt64) :
    (op.serve z sdk reqVal timeout flowId).map Served.shown = (op.serve z { sdk with
      getOneInstance := one
      getInstances := some
      getAllInstances := all
      getQuota := quota } reqVal timeout flowId).map Served.shown := by
  cases op with
  | register | deregister | heartbeat | initService | updateServiceCallResult | updateCallResult | initQuotaWindow => rfl
  | getOneInstance =>
    simp only [Operation.serve]
    cases getOneInstanceRequest z reqVal timeout flowId with
    | error e => rfl
    | ok req => exact congrArg (fun r => Except.ok (SdkCall.getOneInstance req, r)) (instancesReply_inj.mpr (hone req))
  | getInstances =>
    simp only [Operation.serve]
    cases getInstancesRequest z reqVal timeout flowId with
    | error e => rfl
    | ok req => exact congrArg (fun r => Except.ok (SdkCall.getInstances req, r)) (instancesReply_inj.mpr (hsome req))
  | getAllInstances =>
    simp only [Operation.serve]
    cases getAllInstancesRequest z reqVal timeout flowId with
    | error e => rfl
    | ok req => exact congrArg (fun r => Except.ok (SdkCall.getAllInstances req, r)) (instancesReply_inj.mpr (hall req))
  | getQuota =>
    simp only [Operation.serve]
    cases convertToQuotaRequest z reqVal with
    | error e => rfl
    | ok req =>
      have hreply : quotaReply sdk Table.empty (sdk.getQuota req) = quotaReply sdk Table.empty (quota req) := by
        rw [quotaReply_eq, quotaReply_eq, hquota]
      exact congrArg (fun r => Except.ok (SdkCall.getQuota req, r)) hreply

theorem clientStep_alike (ready : Finset Api) (args : List Zval) (m : Method) :
    (clientMachine z).step ready ⟨sdk, args, m⟩ = (clientMachine z).step ready ⟨{ sdk with
      getOneInstance := one
      getInstances := some
      getAllInstances := all
      getQuota := quota }, args, m⟩ := by
  cases m with
  | construct | initProvider | initConsumer | initLimit => rfl
  | operation op =>
    simp only [clientMachine]
    cases op.parse z args with
    | wrongCount | failure => rfl
    | success a =>
      have hserve := serve_alike (z := z) hone hsome hall hquota op a.1 a.2.1 a.2.2
      dsimp only at hserve ⊢
      generalize op.serve z sdk a.1 a.2.1 a.2.2 = x at hserve ⊢
      generalize op.serve z _ a.1 a.2.1 a.2.2 = y at hserve ⊢
      cases x with
      | error e =>
        cases y with
        | error e' =>
          cases hserve
          rfl
        | ok s' => cases hserve
      | ok s =>
        cases y with
        | error e' => cases hserve
        | ok s' =>
          obtain ⟨hcall, hreply⟩ := Prod.mk.inj (Except.ok.inj hserve)
          simp only [hcall, hreply]

end Queries

/-- **SDKs that are alike cannot be told apart**: whatever objects a script
creates, and in any order of their calls, what is called and answered and why
it stops is the same with either. -/
theorem indistinguishable (z : Zend) {s t : Script}
    (h : List.Forall₂ (fun i j => i.1 = j.1 ∧ i.2.Alike j.2) s.inputs t.inputs) :
    ((processMachine z).run .start s.inputs).events = ((processMachine z).run .start t.inputs).events ∧
      ((processMachine z).run .start s.inputs).answers = ((processMachine z).run .start t.inputs).answers ∧
      ∀ e, ((processMachine z).run .start s.inputs).result = .error e ↔
        ((processMachine z).run .start t.inputs).result = .error e := by
  have hsees : Process.start.Sees fun _ => .unborn := fun _ => rfl
  have hrun := (process_simulates z).run hsees
  have hstep : ∀ (σ : Handle → Life (Finset Api)) (i j : Handle × Input), i.1 = j.1 ∧ i.2.Alike j.2 →
      (clients z).step σ i = (clients z).step σ j := by
    rintro σ ⟨k, i⟩ ⟨k', j⟩ ⟨rfl, hij⟩
    cases hij with
    | create | release => rfl
    | call ha =>
      have hclient := clientStep_alike (z := z) ha.getOneInstance ha.getInstances ha.getAllInstances ha.getQuota
      simp only [ha.rest] at hclient
      simp only [clients, Machine.family, Machine.living]
      cases σ k with
      | unborn | released => rfl
      | live ready => simp only [hclient]
  have hsame : (clients z).run (fun _ => .unborn) s.inputs = (clients z).run (fun _ => .unborn) t.inputs :=
    Machine.run_congr hstep _ h
  refine ⟨?_, ?_, fun e => ?_⟩
  · rw [(hrun s.inputs).events, (hrun t.inputs).events, hsame]
  · rw [(hrun s.inputs).answers, (hrun t.inputs).answers, hsame]
  · rw [(hrun s.inputs).error_iff, (hrun t.inputs).error_iff, hsame]

/-- An SDK that knows one instance, under `id`. -/
def sdkWithId (id : Bytes) : Sdk :=
  { Sdk.idle with
    getOneInstance := fun _ =>
      ⟨.kReturnOk, .response { someResponse with instances := [{ someInstance with id := id }] }⟩ }

theorem alike_sdkWithId (id id' : Bytes) : (sdkWithId id).Alike (sdkWithId id') where
  getOneInstance := fun _ => rfl
  getInstances := fun _ => rfl
  getAllInstances := fun _ => rfl
  getQuota := fun _ => rfl
  rest := rfl

/-- A client that asks for an instance. -/
def askOne (sdk : Sdk) : Script where
  inputs := [(0, .create), (0, .call newClient), (0, .call ⟨Sdk.idle, [], .initConsumer⟩),
    (0, .call ⟨sdk, [.array Table.empty, .long 100, .long 1], .operation .getOneInstance⟩)]
  orderly := by simp

theorem alike_refl (sdk : Sdk) : sdk.Alike sdk := ⟨fun _ => rfl, fun _ => rfl, fun _ => rfl, fun _ => rfl, rfl⟩

/-- It cannot tell under which id the instance is registered. -/
theorem indistinguishable_ids :
    ((processMachine (Zend.reading .withoutNul none)).run .start (askOne (sdkWithId (lit "i-1"))).inputs).answers =
      ((processMachine (Zend.reading .withoutNul none)).run .start (askOne (sdkWithId (lit "i-2"))).inputs).answers := by
  refine (indistinguishable _ ?_).2.1
  refine .cons ⟨rfl, .create⟩ (.cons ⟨rfl, .call (alike_refl _)⟩ (.cons ⟨rfl, .call (alike_refl _)⟩ (.cons ⟨rfl, ?_⟩ .nil)))
  exact .call (alike_sdkWithId _ _)

end PolarisPhp
