import EA.DiscoveryQuery
import EA.ServletIndex

namespace EA

open ByteString

variable {serialises : MetaValue → Bool}

/-- Two memories that no query tells apart. -/
def SameAnswers (m m' : Memory) : Prop :=
  ∀ (trim : Bytes → Bytes) (order : HashOrder) (query : DiscoveryQueryRequest),
    discoveryQuery trim order query m' = discoveryQuery trim order query m

/-- The part of memory that queries read. The sets of zones and servlets are not in it. -/
structure SameVisible (m m' : Memory) : Prop where
  users : m'.users = m.users
  configs : m'.configs = m.configs
  instances : m'.instances = m.instances
  namespaceIds : m'.schema.namespaces.idMap = m.schema.namespaces.idMap
  namespaceInfos : m'.schema.namespaces.infoMap = m.schema.namespaces.infoMap
  zoneNames : m'.schema.zones.idMap = m.schema.zones.idMap
  zoneInfos : m'.schema.zones.infoMap = m.schema.zones.infoMap
  servletNames : m'.schema.servlets.idMap = m.schema.servlets.idMap
  servletInfos : m'.schema.servlets.infoMap = m.schema.servlets.infoMap

theorem SameVisible.refl (m : Memory) : SameVisible m m :=
  ⟨rfl, rfl, rfl, rfl, rfl, rfl, rfl, rfl, rfl⟩

theorem SameVisible.sameAnswers {m m' : Memory} (h : SameVisible m m') : SameAnswers m m' := by
  intro trim order query
  unfold discoveryQuery
  cases query.opType with
  | queryUserPrivilege | queryPrivilegeFlatten => rw [h.users]
  | queryNamespace => simp only [getNamespaceInfo, h.namespaceIds, h.namespaceInfos]
  | queryZone => simp only [getZoneInfo, h.zoneNames, h.zoneInfos]
  | queryServlet => simp only [getServletInfo, h.servletNames, h.servletInfos]
  | queryGetConfig | queryListConfig | queryListConfigVersion => rw [h.configs]
  | queryInstance | queryInstanceFlatten => rw [h.instances]
  | other => rfl

namespace Plan

variable {σ : Type} {dbOk : Bool} {db : MetaDb}

/-- What stays in memory when the plan does not end in success. -/
def leftover : Plan σ → σ
  | .refuse _ _ memory => memory
  | .write _ _ _ touched _ => touched

theorem run_error {p : Plan σ} (error : (p.run serialises dbOk db).2.errcode ≠ .success) :
    (p.run serialises dbOk db).1 = (db, p.leftover) := by
  have ends := p.run_ends serialises dbOk db
  generalize p.run serialises dbOk db = out at ends error
  cases ends with
  | refused _ _ _ eq => rw [eq, leftover]
  | failed _ _ _ _ _ _ eq => rw [eq, leftover]
  | written => exact absurd rfl error

/-- The write of a plan does not go through. -/
def Fails (serialises : MetaValue → Bool) (dbOk : Bool) (value : Option MetaValue) : Prop :=
  ¬ (dbOk = true ∧ value.all serialises = true)

theorem run_write_error {value : Option MetaValue} {batch : List BatchOp} {dbError : String}
    {touched memory : σ} (fails : Fails serialises dbOk value) :
    ((Plan.write value batch dbError touched memory).run serialises dbOk db).1 = (db, touched) ∧
      ((Plan.write value batch dbError touched memory).run serialises dbOk db).2.errcode ≠
        .success := by
  have ends := (Plan.write value batch dbError touched memory).run_ends serialises dbOk db
  generalize (Plan.write value batch dbError touched memory).run serialises dbOk db = out at ends
  cases ends with
  | refused _ _ _ eq => simp at eq
  | failed _ _ _ _ _ _ eq _ code =>
    cases eq
    exact ⟨rfl, code⟩
  | written value' _ _ _ _ eq fits works =>
    cases eq
    refine absurd ⟨works, ?_⟩ fails
    cases value with
    | none => rfl
    | some v => simpa using fits

theorem fails_of_error {value : Option MetaValue} {batch : List BatchOp} {dbError : String}
    {touched memory : σ}
    (error : ((Plan.write value batch dbError touched memory).run serialises dbOk db).2.errcode ≠
      .success) : Fails serialises dbOk value := by
  intro ⟨works, fits⟩
  apply error
  cases value with
  | none => simp [run, works]
  | some v =>
    have fit : serialises v = true := fits
    simp [run, works, fit]

end Plan

/-- The requests that leave something behind when they fail: a create of a config of
an unknown name, a modification of a servlet where no servlet has the zone's number,
and a drop of a servlet where a servlet is named like a zone key. -/
def LeavesTrace (serialises : MetaValue → Bool) (request : DiscoveryManagerRequest) (env : Env)
    (m : Memory) : Prop :=
  let s := m.schema
  let zoneId := s.zones.getZoneId request.servletInfo.zoneKey
  (request.opType = .opCreateConfig ∧ m.configs[request.configInfo.name]? = none ∧
    Plan.Fails serialises env.dbOk (some (.configInfo request.configInfo))) ∨
  (request.opType = .opModifyServlet ∧ ModifiesServlet request s ∧
    s.servlets.infoMap[zoneId]? = none ∧
    Plan.Fails serialises env.dbOk
      (some (.servletInfo (modifiedServlet request.servletInfo default)))) ∨
  (request.opType = .opDropServlet ∧
    s.namespaces.getNamespaceId request.servletInfo.namespaceName ≠ 0 ∧ zoneId ≠ 0 ∧
    request.servletInfo.zoneKey ∈ s.servlets.idMap ∧
    s.servlets.idMap[request.servletInfo.servletKey]? = none ∧ env.dbOk = false)

/-- A request that does not succeed changes neither the database nor any answer. -/
def ErrorAtomic (serialises : MetaValue → Bool) (request : DiscoveryManagerRequest) (env : Env)
    (r : Replica) : Prop :=
  (onApply serialises request env r).2.errcode ≠ .success →
    (onApply serialises request env r).1.db = r.db ∧
      SameAnswers r.memory (onApply serialises request env r).1.memory

theorem schema_leftover {request : DiscoveryManagerRequest} {env : Env} {r : Replica}
    (cat : Catalog r.db r.memory.schema) {p : Plan Schema}
    (step : SchemaStep request r.memory.schema p)
    (error : (p.run serialises env.dbOk r.db).2.errcode ≠ .success)
    (clean : ¬ LeavesTrace serialises request env r.memory) :
    SameVisible r.memory { r.memory with schema := p.leftover } := by
  cases step with
  | refused | createNamespace | createZone | createServlet => exact .refl _
  | namespaceHasZones | dropNamespace | zoneHasServlets | dropZone =>
    exact ⟨rfl, rfl, rfl, rfl, rfl, rfl, rfl, rfl, rfl⟩
  | modifyNamespace id old info found read =>
    have here := cat.getD_namespace found read
    simp only [Plan.leftover, NamespaceManager.touchInfo_of_lookup here]
    exact .refl _
  | modifyZone id old info found read =>
    have here := cat.getD_zone found read
    simp only [Plan.leftover, ZoneManager.touchInfo_of_lookup here]
    exact .refl _
  | dropServlet zoneId other op owner zone found =>
    have fails := Plan.fails_of_error error
    cases named : r.memory.schema.servlets.idMap[request.servletInfo.servletKey]? with
    | some v =>
      have same : r.memory.schema.servlets.touchId request.servletInfo.servletKey =
          r.memory.schema.servlets := by
        rw [ServletManager.touchId, Table.touch_of_lookup named]
      simp only [Plan.leftover, same]
      exact .refl _
    | none =>
      refine absurd (Or.inr (Or.inr ⟨op, owner, ?_, ?_, named, ?_⟩)) clean
      · obtain ⟨_, hz, _⟩ := cat.zones.registry.lookup zone
        have pos := cat.zones.registry.positive _ _ hz
        rw [ZoneManager.getZoneId_of_lookup zone]
        omega
      · exact Table.mem_iff_lookup.mpr ⟨other, found⟩
      · simpa [Plan.Fails] using fails
  | modifyServlet zoneId id old info op owner zone found read built =>
    have fails := Plan.fails_of_error error
    have number := ZoneManager.getZoneId_of_lookup zone
    cases known : r.memory.schema.servlets.infoMap[zoneId]? with
    | some servlet =>
      simp only [Plan.leftover, ServletManager.touchInfo_of_lookup known]
      exact .refl _
    | none =>
      rw [Table.getD_eq, known] at read
      obtain ⟨_, hz, _⟩ := cat.zones.registry.lookup zone
      have pos := cat.zones.registry.positive _ _ hz
      refine absurd (Or.inr (Or.inl ⟨op, ⟨owner, ?_, ?_⟩, ?_, ?_⟩)) clean
      · rw [number]
        omega
      · exact Table.mem_iff_lookup.mpr ⟨id, found⟩
      · rw [number]
        exact known
      · have empty : old = default := read.symm
        rw [← empty, built]
        exact fails

theorem errorAtomic_of_clean {request : DiscoveryManagerRequest} {env : Env} {r : Replica}
    (cat : Catalog r.db r.memory.schema) (clean : ¬ LeavesTrace serialises request env r.memory) :
    ErrorAtomic serialises request env r := by
  have applied := onApply_applied serialises request env r
  unfold ErrorAtomic
  generalize onApply serialises request env r = out at applied
  intro error
  cases applied with
  | schema p h =>
    have left := Plan.run_error error
    have visible := schema_leftover cat (schemaPlan_step h) error clean
    rw [left]
    exact ⟨rfl, visible.sameAnswers⟩
  | users p h =>
    have left := Plan.run_error error
    have same : p.leftover = r.memory.users := by
      cases usersPlan_step h <;> rfl
    rw [left, same]
    exact ⟨rfl, (SameVisible.refl _).sameAnswers⟩
  | configs p h =>
    have left := Plan.run_error error
    rw [left]
    refine ⟨rfl, ?_⟩
    have same : p.leftover = r.memory.configs := by
      cases configsPlan_step h with
      | refused | removedAll | removed => rfl
      | created version versions op =>
        have fails := Plan.fails_of_error error
        cases named : r.memory.configs[request.configInfo.name]? with
        | some versions => exact Table.touch_of_lookup named
        | none => exact absurd (Or.inl ⟨op, named, fails⟩) clean
    rw [same]
    exact (SameVisible.refl _).sameAnswers
  | instances p h =>
    have left := Plan.run_error error
    have same : p.leftover = r.memory.instances := by
      cases instancesPlan_step h <;> rfl
    rw [left, same]
    exact ⟨rfl, (SameVisible.refl _).sameAnswers⟩
  | unknown => exact ⟨rfl, (SameVisible.refl _).sameAnswers⟩

/-- An atomic request whose write fails leaves a memory that answers alike. -/
theorem ErrorAtomic.touched_sameAnswers {σ : Type} {request : DiscoveryManagerRequest} {env : Env}
    {r : Replica} (atomic : ErrorAtomic serialises request env r) {value : Option MetaValue}
    {batch : List BatchOp} {dbError : String} {touched memory : σ} {f : σ → Memory}
    (h : handle request env.now r.memory =
      (Plan.write value batch dbError touched memory).map f)
    (fails : Plan.Fails serialises env.dbOk value) : SameAnswers r.memory (f touched) := by
  have applied : onApply serialises request env r = _ := onApply_of_handle h
  obtain ⟨left, code⟩ :
      ((Plan.write value batch dbError touched memory).run serialises env.dbOk r.db).1 =
          (r.db, touched) ∧
        ((Plan.write value batch dbError touched memory).run serialises env.dbOk r.db).2.errcode ≠
          .success := Plan.run_write_error fails
  have same := (atomic (by rw [applied]; exact code)).2
  rw [applied, left] at same
  exact same

theorem createConfig_of_absent {request : DiscoveryManagerRequest} {configs : ConfigTable}
    (absent : configs[request.configInfo.name]? = none) :
    ∃ batch memory, createConfig request configs =
      .write (some (.configInfo request.configInfo)) batch "write db fail"
        (Table.touch configs request.configInfo.name) memory := by
  have none : (Table.touch configs request.configInfo.name).getD request.configInfo.name default =
      (∅ : VersionTable) := by
    rw [Table.getD_touch, Table.getD_eq, absent]
    rfl
  unfold createConfig
  dsimp only
  rw [none, if_neg (by simp), if_neg (by simp [newestVersion_empty])]
  exact ⟨_, _, rfl⟩

theorem modifyServlet_of_checks {request : DiscoveryManagerRequest} {s : Schema}
    (checks : ModifiesServlet request s) :
    let zoneId := s.zones.getZoneId request.servletInfo.zoneKey
    ∃ batch memory, modifyServlet request s =
      .write (some (.servletInfo (modifiedServlet request.servletInfo
        (s.servlets.infoMap.getD zoneId default)))) batch "write db fail"
        { s with servlets := s.servlets.touchInfo zoneId } memory := by
  obtain ⟨owner, zone, named⟩ := checks
  obtain ⟨id, found⟩ := Table.mem_iff_lookup.mp named
  unfold modifyServlet
  dsimp only
  rw [if_neg owner, if_neg (by exact zone)]
  split
  next absent => exact absurd (found.symm.trans absent) (by simp)
  next => exact ⟨_, _, rfl⟩

theorem dropServlet_of_checks {request : DiscoveryManagerRequest} {s : Schema}
    (owner : s.namespaces.getNamespaceId request.servletInfo.namespaceName ≠ 0)
    (zone : s.zones.getZoneId request.servletInfo.zoneKey ≠ 0)
    (named : request.servletInfo.zoneKey ∈ s.servlets.idMap) :
    ∃ batch memory, dropServlet request s =
      .write none batch "write db fail"
        { s with servlets := s.servlets.touchId request.servletInfo.servletKey } memory := by
  obtain ⟨id, found⟩ := Table.mem_iff_lookup.mp named
  unfold dropServlet
  dsimp only
  rw [if_neg owner, if_neg (by exact zone)]
  split
  next absent => exact absurd (found.symm.trans absent) (by simp)
  next => exact ⟨_, _, rfl⟩

/-- The list of configs shows the empty version map. -/
theorem not_sameAnswers_touch_config {m : Memory} {name : Bytes} (absent : m.configs[name]? = none) :
    ¬ SameAnswers m { m with configs := Table.touch m.configs name } := by
  intro same
  have listed := congrArg DiscoveryQueryResponse.configInfos
    (same id .keyOrder { opType := .queryListConfig })
  have keys : (Table.touch m.configs name).keys = m.configs.keys := by
    have injective : Function.Injective fun name : Bytes => ({ name := name } : ConfigInfo) := by
      intro a b eq
      exact congrArg ConfigInfo.name eq
    exact injective.list_map listed
  have here : name ∈ (Table.touch m.configs name).keys := by
    rw [Std.ExtTreeMap.mem_keys, Table.touch_of_none absent]
    simp
  rw [keys, Std.ExtTreeMap.mem_keys] at here
  obtain ⟨versions, found⟩ := Table.mem_iff_lookup.mp here
  simp [absent] at found

/-- The list of servlets shows the default servlet. -/
theorem not_sameAnswers_touch_info {m : Memory} {id : Nat}
    (absent : m.schema.servlets.infoMap[id]? = none) :
    ¬ SameAnswers m { m with schema :=
      { m.schema with servlets := m.schema.servlets.touchInfo id } } := by
  intro same
  have listed := congrArg (fun response : DiscoveryQueryResponse => response.servletInfos.length)
    (same (fun s => s) .keyOrder { opType := .queryServlet })
  have vals : ((Table.touch m.schema.servlets.infoMap id).vals).length =
      (m.schema.servlets.infoMap.vals).length := listed
  have fresh : id ∉ m.schema.servlets.infoMap := by
    intro mem
    obtain ⟨info, found⟩ := Table.mem_iff_lookup.mp mem
    simp [absent] at found
  rw [Table.touch_of_none absent, Table.vals, Table.vals, List.length_map, List.length_map,
    Std.ExtTreeMap.length_toList, Std.ExtTreeMap.length_toList, Std.ExtTreeMap.size_insert,
    if_neg (by simpa using fresh)] at vals
  omega

/-- A query of the servlet's name finds it. -/
theorem not_sameAnswers_touch_id {m : Memory} {servlet : ServletInfo}
    (absent : m.schema.servlets.idMap[servlet.servletKey]? = none) :
    ¬ SameAnswers m { m with schema :=
      { m.schema with servlets := m.schema.servlets.touchId servlet.servletKey } } := by
  intro same
  have answered := congrArg DiscoveryQueryResponse.errcode
    (same id .keyOrder
      { opType := .queryServlet, namespaceName := some servlet.namespaceName,
        zone := some servlet.zone, servlet := some servlet.servletName })
  have key : makeServletKey (makeZoneKey servlet.namespaceName servlet.zone) servlet.servletName =
      servlet.servletKey := rfl
  have touched : (m.schema.servlets.touchId servlet.servletKey).idMap[servlet.servletKey]? =
      some 0 := by
    rw [ServletManager.touchId, Table.touch_of_none absent, Table.lookup_insert_self]
    rfl
  simp only [discoveryQuery, getServletInfo, Option.getD_some, key, absent, touched,
    inputParamError] at answered
  simp at answered

/-- An error changes nothing unless the request is one that leaves a trace. -/
theorem errors_atomic_iff {r : Replica} (h : Reachable serialises (fun _ _ => True) r)
    (request : DiscoveryManagerRequest) (env : Env) :
    ErrorAtomic serialises request env r ↔ ¬ LeavesTrace serialises request env r.memory := by
  refine ⟨?_, errorAtomic_of_clean (reachable_catalog h)⟩
  intro atomic trace
  rcases trace with ⟨op, absent, fails⟩ | ⟨op, checks, absent, fails⟩ |
    ⟨op, owner, zone, named, absent, down⟩
  · obtain ⟨batch, memory, plan⟩ := createConfig_of_absent absent
    have handled : handle request env.now r.memory = (createConfig request r.memory.configs).map
        fun c => { r.memory with configs := c } := by
      unfold handle
      rw [op]
    rw [plan] at handled
    have same := atomic.touched_sameAnswers handled fails
    exact not_sameAnswers_touch_config absent same
  · obtain ⟨batch, memory, plan⟩ := modifyServlet_of_checks checks
    have handled : handle request env.now r.memory = (modifyServlet request r.memory.schema).map
        fun s => { r.memory with schema := s } := by
      unfold handle
      rw [op]
    rw [Table.getD_eq, absent] at plan
    rw [plan] at handled
    have same := atomic.touched_sameAnswers handled fails
    exact not_sameAnswers_touch_info absent same
  · obtain ⟨batch, memory, plan⟩ := dropServlet_of_checks owner zone named
    have handled : handle request env.now r.memory = (dropServlet request r.memory.schema).map
        fun s => { r.memory with schema := s } := by
      unfold handle
      rw [op]
    rw [plan] at handled
    have fails : Plan.Fails serialises env.dbOk none := by
      intro ⟨works, _⟩
      simp [down] at works
    have same := atomic.touched_sameAnswers handled fails
    exact not_sameAnswers_touch_id absent same

def createConfigRequest (name : String) : DiscoveryManagerRequest :=
  { opType := .opCreateConfig, configInfo := { name := ascii name } }

def secondConfigRequest (name : String) : DiscoveryManagerRequest :=
  { opType := .opCreateConfig, configInfo := { name := ascii name, version := some ⟨2, 0, 0⟩ } }

/-- A second version of a known config that is not written is an error that leaves no trace. -/
theorem errors_atomic_iff_known :
    ∃ r, Replica.step (fun _ => true) {} (.apply (createConfigRequest "limits") ⟨0, true⟩) = some r ∧
      (onApply (fun _ => true) (secondConfigRequest "limits") ⟨0, false⟩ r).2.errcode ≠ .success ∧
      ErrorAtomic (fun _ => true) (secondConfigRequest "limits") ⟨0, false⟩ r := by
  let event : DiscoveryEvent := .apply (createConfigRequest "limits") ⟨0, true⟩
  let r := (onApply (fun _ => true) (createConfigRequest "limits") ⟨0, true⟩ {}).1
  have step : Replica.step (fun _ => true) {} event = some r := rfl
  have reached : Reachable (fun _ => true) (fun _ _ => True) r :=
    Reach.From.start.next trivial step
  refine ⟨r, step, by decide, (errors_atomic_iff reached _ _).mpr ?_⟩
  rintro (⟨_, unknown, _⟩ | ⟨op, _⟩ | ⟨op, _⟩)
  · have known : r.memory.configs[ascii "limits"]?.isSome = true := by decide
    rw [show r.memory.configs[ascii "limits"]? = none from unknown] at known
    simp at known
  · simp [secondConfigRequest] at op
  · simp [secondConfigRequest] at op

/-- A config whose first version never reached the database is listed. -/
theorem failed_config_is_listed :
    ¬ ∀ r, Reachable (fun _ => true) (fun _ _ => True) r → ∀ request env,
      ErrorAtomic (fun _ => true) request env r := by
  intro atomic
  have failed : (onApply (fun _ => true) (createConfigRequest "limits") ⟨0, false⟩ {}).2.errcode ≠
      .success := by decide
  have same := (atomic {} .start (createConfigRequest "limits") ⟨0, false⟩ failed).2
  have listed := congrArg (fun response : DiscoveryQueryResponse => response.configInfos.length)
    (same id .keyOrder { opType := .queryListConfig })
  exact absurd listed (by decide)

end EA
