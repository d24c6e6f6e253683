import EA.ConfigSnapshot

namespace EA

open ByteString Nested

variable {serialises : MetaValue → Bool} {request : DiscoveryManagerRequest} {r : Replica}

/-- The pairs a removal is about: one version of the name, or all of them. -/
def RemovalTargets (request : DiscoveryManagerRequest) (name : Bytes) (version : ModuleVersion) :
    Prop :=
  request.configInfo.name = name ∧ ∀ v ∈ request.configInfo.version, v = version

instance (request : DiscoveryManagerRequest) (name : Bytes) (version : ModuleVersion) :
    Decidable (RemovalTargets request name version) := by
  unfold RemovalTargets
  infer_instance

/-- A pair that the removal is about is stored. -/
def RemovalStored (request : DiscoveryManagerRequest) (configs : ConfigTable) : Prop :=
  ∃ name version info, RemovalTargets request name version ∧
    find configs name version = some info

/-- The removal answers success exactly for a stored target, and takes away exactly
the targets, in memory and in the database. -/
structure RemovesExactly (serialises : MetaValue → Bool) (request : DiscoveryManagerRequest)
    (env : Env) (r : Replica) : Prop where
  answer : (onApply serialises request env r).2.errcode = .success ↔
    RemovalStored request r.memory.configs
  memory : RemovalStored request r.memory.configs → ∀ name version,
    find (onApply serialises request env r).1.memory.configs name version =
      if RemovalTargets request name version then none else find r.memory.configs name version
  erased : ∀ name version info, RemovalTargets request name version →
    find r.memory.configs name version = some info →
    (onApply serialises request env r).1.db[makeConfigKey name version]? = none
  stays : ∀ name version info, ¬ RemovalTargets request name version →
    find r.memory.configs name version = some info →
    (onApply serialises request env r).1.db[makeConfigKey name version]? =
      r.db[makeConfigKey name version]?
  elsewhere : ∀ key : Bytes,
    (∀ name version info, RemovalTargets request name version →
      find r.memory.configs name version = some info → key ≠ makeConfigKey name version) →
    (onApply serialises request env r).1.db[key]? = r.db[key]?
  rejected : ¬ RemovalStored request r.memory.configs →
    (onApply serialises request env r).1 = r

/-- A target has its record under the key of a stored version that is none. -/
def SharesRecord (request : DiscoveryManagerRequest) (r : Replica) : Prop :=
  ∃ name version info name' version' info', RemovalTargets request name version ∧
    find r.memory.configs name version = some info ∧ ¬ RemovalTargets request name' version' ∧
    find r.memory.configs name' version' = some info' ∧
    makeConfigKey name' version' = makeConfigKey name version ∧
    (r.db[makeConfigKey name version]?).isSome = true

theorem removeConfig_absent {configs : ConfigTable}
    (absent : configs[request.configInfo.name]? = none) :
    removeConfig request configs = .refuse .parseToPbFail "config not exist" configs := by
  unfold removeConfig removeConfigAll
  simp only [absent]
  cases request.configInfo.version <;> rfl

/-- The database keys that a removal deletes once it has found the name. -/
def removedKeys (request : DiscoveryManagerRequest) (versions : VersionTable) : List Bytes :=
  match request.configInfo.version with
  | none => versions.keys.map fun version => makeConfigKey request.configInfo.name version
  | some version => [makeConfigKey request.configInfo.name version]

/-- Once the name is found, both ways of removing take the targets out. -/
theorem removeConfig_found {configs : ConfigTable} {versions : VersionTable}
    (found : configs[request.configInfo.name]? = some versions) :
    ∃ configs', removeConfig request configs = .write none
        ((removedKeys request versions).map fun key => (key, none)) "delete from db fail" configs
        configs' ∧
      ∀ name version, find configs' name version =
        if RemovalTargets request name version then none else find configs name version := by
  by_cases all : request.configInfo.version = none
  · simp only [removeConfig, removeConfigAll, removedKeys, all, found, List.map_map]
    refine ⟨_, rfl, fun name version => ?_⟩
    by_cases same : request.configInfo.name = name
    · subst same
      rw [find_erase_self, if_pos ⟨rfl, by simp [all]⟩]
    · rw [find_erase_ne same, if_neg fun h => same h.1]
  · obtain ⟨v, one⟩ := Option.ne_none_iff_exists'.mp all
    simp only [removeConfig, removedKeys, one, found]
    refine ⟨remove configs request.configInfo.name v versions, rfl, fun name version => ?_⟩
    by_cases same : (request.configInfo.name, v) = (name, version)
    · obtain ⟨rfl, rfl⟩ := Prod.mk.inj same
      rw [if_pos ⟨rfl, by simp [one]⟩]
      exact find_remove_self
    · rw [if_neg]
      · exact find_remove_ne found same
      · rintro ⟨here, only⟩
        exact same (by rw [here, only v one])

theorem mem_removedKeys {configs : ConfigTable} {versions : VersionTable}
    (found : configs[request.configInfo.name]? = some versions)
    (stored : RemovalStored request configs) (key : Bytes) :
    key ∈ removedKeys request versions ↔ ∃ name version info,
      RemovalTargets request name version ∧ find configs name version = some info ∧
        key = makeConfigKey name version := by
  unfold removedKeys
  obtain ⟨name, version, info, ⟨rfl, targets⟩, here⟩ := stored
  cases hv : request.configInfo.version with
  | none =>
    dsimp only
    rw [List.mem_map]
    constructor
    · rintro ⟨version, mem, eq⟩
      obtain ⟨info, entry⟩ := Table.mem_iff_lookup.mp (by simpa using mem)
      exact ⟨_, version, info, ⟨rfl, by simp [hv]⟩, (find_of_lookup found).trans entry, eq.symm⟩
    · rintro ⟨name, version, info, ⟨same, _⟩, entry, eq⟩
      subst same
      rw [find_of_lookup found] at entry
      have mem : version ∈ versions := Table.mem_iff_lookup.mpr ⟨info, entry⟩
      exact ⟨version, by simpa using mem, eq.symm⟩
  | some v =>
    dsimp only
    rw [List.mem_singleton]
    have one : v = version := targets v (by simp [hv])
    subst one
    constructor
    · intro eq
      exact ⟨_, v, info, ⟨rfl, by simp [hv]⟩, here, eq⟩
    · rintro ⟨name, version, _, ⟨same, only⟩, _, eq⟩
      have again : v = version := only v (by simp [hv])
      rw [eq, same, again]

/-- The name is unknown, or a target is stored and no target has its record under
the key of a version that is to stay. -/
def RemovalSound (request : DiscoveryManagerRequest) (r : Replica) : Prop :=
  request.configInfo.name ∉ r.memory.configs ∨
    RemovalStored request r.memory.configs ∧ ¬ SharesRecord request r

theorem removesExactly_absent (op : request.opType = .opRemoveConfig) {env : Env}
    (absent : request.configInfo.name ∉ r.memory.configs) :
    RemovesExactly serialises request env r := by
  have missing : r.memory.configs[request.configInfo.name]? = none := by
    simpa using absent
  have out : onApply serialises request env r = (r, ⟨.parseToPbFail, "config not exist"⟩) := by
    rw [onApply_configs (configsPlan_remove op r.memory.configs), removeConfig_absent missing]
    rfl
  have nothing : ∀ name version info, RemovalTargets request name version →
      find r.memory.configs name version ≠ some info := by
    intro name version info targets found
    obtain ⟨versions, held, _⟩ := find_eq_some.mp found
    rw [← targets.1, missing] at held
    cases held
  have none : ¬ RemovalStored request r.memory.configs := by
    rintro ⟨name, version, info, targets, found⟩
    exact nothing name version info targets found
  refine ⟨?_, fun stored => absurd stored none, ?_, ?_, ?_, ?_⟩
  · rw [out]
    exact iff_of_false (by simp) none
  · exact fun name version info targets found => absurd found (nothing name version info targets)
  · rw [out]
    exact fun _ _ _ _ _ => rfl
  · rw [out]
    exact fun _ _ => rfl
  · rw [out]
    exact fun _ => rfl

/-- Where the name is found, the answer is success and the deleted keys are gone. -/
theorem removeConfig_ran (serialises : MetaValue → Bool)
    (op : request.opType = .opRemoveConfig) {env : Env}
    (works : env.dbOk = true) {versions : VersionTable}
    (found : r.memory.configs[request.configInfo.name]? = some versions) :
    (onApply serialises request env r).2.errcode = .success ∧
      (∀ name version, find (onApply serialises request env r).1.memory.configs name version =
        if RemovalTargets request name version then none
        else find r.memory.configs name version) ∧
      ∀ key : Bytes, (onApply serialises request env r).1.db[key]? =
        if key ∈ removedKeys request versions then none else r.db[key]? := by
  obtain ⟨configs', plan, moved⟩ := removeConfig_found found
  have out : onApply serialises request env r =
      (⟨((removedKeys request versions).map fun key => ((key, none) : BatchOp)).foldl
          BatchOp.apply r.db, { r.memory with configs := configs' }⟩, ⟨.success, "success"⟩) := by
    rw [onApply_configs (configsPlan_remove op r.memory.configs), plan]
    simp only [Plan.run, works]
    rfl
  rw [out]
  exact ⟨rfl, moved, fun key => lookup_eraseBatch (removedKeys request versions) r.db key⟩

/-- A removal is exact if and only if the name is unknown, or the target is stored
and shares no record with what is to stay. -/
theorem removes_exactly_iff {env : Env} (op : request.opType = .opRemoveConfig)
    (works : env.dbOk = true) :
    RemovesExactly serialises request env r ↔ RemovalSound request r := by
  by_cases present : request.configInfo.name ∈ r.memory.configs
  · obtain ⟨versions, found⟩ := Table.mem_iff_lookup.mp present
    obtain ⟨success, moved, deleted⟩ := removeConfig_ran serialises op works found
    constructor
    · intro exact
      have stored := exact.answer.mp success
      refine Or.inr ⟨stored, ?_⟩
      rintro ⟨name, version, info, name', version', info', targets, held, other, held', key,
        record⟩
      have kept := exact.stays name' version' info' other held'
      have gone := exact.erased name version info targets held
      rw [key, gone] at kept
      rw [← kept] at record
      cases record
    · rintro (absent | ⟨stored, apart⟩)
      · exact absurd present absent
      · have keys := mem_removedKeys found stored
        refine ⟨iff_of_true success stored, fun _ => moved, ?_, ?_, ?_, ?_⟩
        · intro name version info targets held
          rw [deleted, if_pos ((keys _).mpr ⟨name, version, info, targets, held, rfl⟩)]
        · intro name' version' info' other held'
          rw [deleted]
          split
          next mem =>
            obtain ⟨name, version, info, targets, held, key⟩ := (keys _).mp mem
            by_contra record
            refine apart ⟨name, version, info, name', version', info', targets, held, other, held',
              key, ?_⟩
            rw [← key]
            exact Option.isSome_iff_ne_none.mpr fun gone => record gone.symm
          next => rfl
        · intro key elsewhere
          rw [deleted, if_neg]
          intro mem
          obtain ⟨name, version, info, targets, held, same⟩ := (keys _).mp mem
          exact elsewhere name version info targets held same
        · exact fun none => absurd stored none
  · exact iff_of_true (removesExactly_absent op present) (Or.inl present)

/-- A version stored under a key of its own. -/
theorem RemovalSound.of_version {version : ModuleVersion} {info : ConfigInfo}
    (one : request.configInfo.version = some version)
    (found : find r.memory.configs request.configInfo.name version = some info)
    (noClash : ¬ Clash r.memory.configs request.configInfo.name version) :
    RemovalSound request r := by
  have target : RemovalTargets request request.configInfo.name version := by
    refine ⟨rfl, fun v given => ?_⟩
    rw [one] at given
    exact (Option.some.inj given).symm
  refine Or.inr ⟨⟨_, version, info, target, found⟩, ?_⟩
  rintro ⟨name, v, _, name', version', info', ⟨same, only⟩, _, other, held', key, _⟩
  subst same
  have here : version = v := only version one
  subst here
  refine noClash ⟨name', version', info', held', fun eq => ?_, key⟩
  obtain ⟨rfl, rfl⟩ := Prod.mk.inj eq
  exact other target

def removalOf (version : ModuleVersion) : DiscoveryManagerRequest :=
  { opType := .opRemoveConfig, configInfo := { name := ascii "app", version := some version } }

theorem one_of_two_removed :
    ∃ r, (configEvents.take 2).foldlM (Replica.step fun _ => true) {} = some r ∧
      RemovesExactly (fun _ => true) (removalOf ⟨1, 0, 0⟩) ⟨0, true⟩ r := by
  have run : ((configEvents.take 2).foldlM (Replica.step fun _ => true) {}).map (fun r =>
      ((find r.memory.configs (ascii "app") ⟨1, 0, 0⟩).isSome,
        decide (Clash r.memory.configs (ascii "app") ⟨1, 0, 0⟩))) = some (true, false) := by
    decide
  obtain ⟨r, hr, eq⟩ := Option.map_eq_some_iff.mp run
  obtain ⟨stored, apart⟩ := Prod.mk.inj eq
  obtain ⟨info, found⟩ := Option.isSome_iff_exists.mp stored
  have sound : RemovalSound (removalOf ⟨1, 0, 0⟩) r :=
    .of_version rfl found (of_decide_eq_false apart)
  exact ⟨r, hr, (removes_exactly_iff rfl rfl).mpr sound⟩

/-- Removing 2.0.0 where only 1.0.0 is stored answers success. -/
theorem missing_version_removed :
    ¬ ∀ (r : Replica) (request : DiscoveryManagerRequest) (env : Env),
      Reachable (fun _ => true) (fun _ e => ConfigEvent e) r →
      request.opType = .opRemoveConfig → env.dbOk = true →
      RemovesExactly (fun _ => true) request env r := by
  intro exactly
  have run : ((configEvents.take 1).foldlM (Replica.step fun _ => true) {}).map (fun r =>
      ((find r.memory.configs (ascii "app") ⟨2, 0, 0⟩).isSome,
        (onApply (fun _ => true) (removalOf ⟨2, 0, 0⟩) ⟨0, true⟩ r).2.errcode)) =
      some (false, .success) := by decide
  obtain ⟨r, hr, eq⟩ := Option.map_eq_some_iff.mp run
  obtain ⟨absent, success⟩ := Prod.mk.inj eq
  have reached : Reachable (fun _ => true) (fun _ e => ConfigEvent e) r := by
    refine Reach.From.of_foldlM (fun _ e he => ?_) hr
    cases List.mem_singleton.mp he
    exact ⟨by simp, rfl⟩
  have removal := exactly r (removalOf ⟨2, 0, 0⟩) ⟨0, true⟩ reached rfl rfl
  obtain ⟨name, version, info, ⟨rfl, only⟩, found⟩ := removal.answer.mp success
  have here : (⟨2, 0, 0⟩ : ModuleVersion) = version := only _ rfl
  subst here
  have missing : find r.memory.configs (ascii "app") ⟨2, 0, 0⟩ = none := by
    simpa using absent
  exact absurd (missing.symm.trans found) (by simp)

end EA
