import EA.DiscoveryRuns
import EA.Lib.Nested
import EA.Lib.Replay

namespace EA

open ByteString Nested

variable {serialises : MetaValue → Bool}

/-- Memory and database hold the same configs: an info carries the name and version
it is stored under, and each pair has a database key of its own. -/
structure ConfigsKept (db : MetaDb) (configs : ConfigTable) : Prop where
  named : ∀ name version info, find configs name version = some info →
    info.name = name ∧ info.version = some version
  distinct : ∀ name version info name' version' info',
    find configs name version = some info → find configs name' version' = some info' →
    makeConfigKey name version = makeConfigKey name' version' → name = name' ∧ version = version'
  stored : ∀ name version info, find configs name version = some info →
    db[makeConfigKey name version]? = some (.configInfo info)
  recorded : ∀ key value, configIdentify.isPrefixOf key = true → db[key]? = some value →
    ∃ name version info, find configs name version = some info ∧
      key = makeConfigKey name version ∧ value = .configInfo info
  noEmpty : NoEmpty configs

theorem makeConfigKey_isPrefixOf (name : Bytes) (version : ModuleVersion) :
    configIdentify.isPrefixOf (makeConfigKey name version) = true := rfl

theorem configsKept_empty : ConfigsKept ∅ ∅ where
  named := by simp [find]
  distinct := by simp [find]
  stored := by simp [find]
  recorded := by simp
  noEmpty := noEmpty_empty

theorem ConfigsKept.frame {db db' : MetaDb} {configs : ConfigTable}
    (same : SameRecords configIdentify db db') (h : ConfigsKept db configs) :
    ConfigsKept db' configs where
  named := h.named
  distinct := h.distinct
  stored name version info found := by
    rw [same _ (makeConfigKey_isPrefixOf name version)]
    exact h.stored name version info found
  recorded key value here hv := by
    rw [same key here] at hv
    exact h.recorded key value here hv
  noEmpty := h.noEmpty

/-- Another stored pair has the database key of this one. -/
def Clash (configs : ConfigTable) (name : Bytes) (version : ModuleVersion) : Prop :=
  ∃ name' version' info, find configs name' version' = some info ∧
    (name', version') ≠ (name, version) ∧
    makeConfigKey name' version' = makeConfigKey name version

theorem ConfigsKept.create {db : MetaDb} {configs : ConfigTable} (h : ConfigsKept db configs)
    {info : ConfigInfo} {version : ModuleVersion} (versioned : info.version = some version)
    (noClash : ¬ Clash configs info.name version) :
    ConfigsKept (db.insert (makeConfigKey info.name version) (.configInfo info))
      (put configs info.name version info) := by
  have apart : ∀ name' version' info', find configs name' version' = some info' →
      (info.name, version) ≠ (name', version') →
      makeConfigKey info.name version ≠ makeConfigKey name' version' := by
    intro name' version' info' found ne eq
    exact noClash ⟨name', version', info', found, ne.symm, eq.symm⟩
  -- an entry of the new table is the created one or an old one
  have entry : ∀ {name' version' info'},
      find (put configs info.name version info) name' version' = some info' →
      ((info.name, version) = (name', version') ∧ info = info') ∨
        ((info.name, version) ≠ (name', version') ∧ find configs name' version' = some info') := by
    intro name' version' info' found
    by_cases same : (info.name, version) = (name', version')
    · obtain ⟨rfl, rfl⟩ := Prod.mk.inj same
      rw [find_put_self] at found
      exact Or.inl ⟨rfl, Option.some.inj found⟩
    · rw [find_put_ne same] at found
      exact Or.inr ⟨same, found⟩
  refine ⟨?_, ?_, ?_, ?_, h.noEmpty.put⟩
  · intro name' version' info' found
    rcases entry found with ⟨same, rfl⟩ | ⟨_, old⟩
    · obtain ⟨rfl, rfl⟩ := Prod.mk.inj same
      exact ⟨rfl, versioned⟩
    · exact h.named name' version' info' old
  · intro name₁ version₁ info₁ name₂ version₂ info₂ found₁ found₂ eq
    rcases entry found₁ with ⟨same₁, _⟩ | ⟨ne₁, old₁⟩
    · obtain ⟨rfl, rfl⟩ := Prod.mk.inj same₁
      rcases entry found₂ with ⟨same₂, _⟩ | ⟨ne₂, old₂⟩
      · exact Prod.mk.inj same₂
      · exact absurd eq (apart name₂ version₂ info₂ old₂ ne₂)
    · rcases entry found₂ with ⟨same₂, _⟩ | ⟨_, old₂⟩
      · obtain ⟨rfl, rfl⟩ := Prod.mk.inj same₂
        exact absurd eq.symm (apart name₁ version₁ info₁ old₁ ne₁)
      · exact h.distinct _ _ _ _ _ _ old₁ old₂ eq
  · intro name' version' info' found
    rcases entry found with ⟨same, rfl⟩ | ⟨ne, old⟩
    · obtain ⟨rfl, rfl⟩ := Prod.mk.inj same
      exact Table.lookup_insert_self ..
    · rw [Table.lookup_insert_ne _ _ (apart name' version' info' old ne)]
      exact h.stored name' version' info' old
  · intro key value here hv
    rcases Table.lookup_insert_some hv with ⟨rfl, rfl⟩ | ⟨other, hv⟩
    · exact ⟨info.name, version, info, find_put_self, rfl, rfl⟩
    · obtain ⟨name', version', info', old, rfl, rfl⟩ := h.recorded key value here hv
      have ne : (info.name, version) ≠ (name', version') := by
        intro same
        obtain ⟨rfl, rfl⟩ := Prod.mk.inj same
        exact other rfl
      exact ⟨name', version', info', by rw [find_put_ne ne]; exact old, rfl, rfl⟩

/-- Removing entries together with their records, and no other records. -/
theorem ConfigsKept.shrink {db db' : MetaDb} {configs configs' : ConfigTable}
    (h : ConfigsKept db configs) (noEmpty : NoEmpty configs')
    (less : ∀ name version info, find configs' name version = some info →
      find configs name version = some info ∧
        db'[makeConfigKey name version]? = db[makeConfigKey name version]?)
    (gone : ∀ name version info value, find configs name version = some info →
      db'[makeConfigKey name version]? = some value → find configs' name version = some info)
    (sub : ∀ (key : Bytes) (value : MetaValue), db'[key]? = some value → db[key]? = some value) :
    ConfigsKept db' configs' where
  named name version info found := h.named _ _ _ (less name version info found).1
  distinct name version info name' version' info' found found' :=
    h.distinct _ _ _ _ _ _ (less name version info found).1 (less name' version' info' found').1
  stored name version info found := by
    obtain ⟨old, same⟩ := less name version info found
    rw [same]
    exact h.stored name version info old
  recorded key value here hv := by
    obtain ⟨name, version, info, old, rfl, rfl⟩ := h.recorded key value here (sub key value hv)
    exact ⟨name, version, info, gone name version info _ old hv, rfl, rfl⟩
  noEmpty := noEmpty

theorem ConfigsKept.remove {db : MetaDb} {configs : ConfigTable} (h : ConfigsKept db configs)
    {name : Bytes} {version : ModuleVersion} {versions : VersionTable}
    (found : configs[name]? = some versions) (noClash : ¬ Clash configs name version) :
    ConfigsKept (db.erase (makeConfigKey name version)) (remove configs name version versions) := by
  refine h.shrink h.noEmpty.remove ?_ ?_ ?_
  · intro name' version' info hf
    by_cases same : (name, version) = (name', version')
    · obtain ⟨rfl, rfl⟩ := Prod.mk.inj same
      rw [find_remove_self] at hf
      simp at hf
    · rw [find_remove_ne found same] at hf
      have apart : makeConfigKey name version ≠ makeConfigKey name' version' :=
        fun eq => noClash ⟨name', version', info, hf, Ne.symm same, eq.symm⟩
      exact ⟨hf, Table.lookup_erase_ne db apart⟩
  · intro name' version' info value hf hv
    have other := (Table.lookup_erase_some hv).1
    have ne : (name, version) ≠ (name', version') := by
      intro same
      obtain ⟨rfl, rfl⟩ := Prod.mk.inj same
      exact other rfl
    rw [find_remove_ne found ne]
    exact hf
  · exact fun key value hv => (Table.lookup_erase_some hv).2

theorem lookup_eraseBatch (keys : List Bytes) (db : MetaDb) (key : Bytes) :
    ((keys.map fun k => ((k, none) : BatchOp)).foldl BatchOp.apply db)[key]? =
      if key ∈ keys then none else db[key]? := by
  induction keys generalizing db with
  | nil => simp
  | cons k keys ih =>
    have first : BatchOp.apply db (k, none) = db.erase k := rfl
    rw [List.map_cons, List.foldl_cons, ih, first]
    by_cases same : k = key
    · subst key
      simp
    · rw [Table.lookup_erase_ne db same]
      have other : key ≠ k := Ne.symm same
      simp [other]

theorem ConfigsKept.removeAll {db : MetaDb} {configs : ConfigTable} (h : ConfigsKept db configs)
    {name : Bytes} {versions : VersionTable} (found : configs[name]? = some versions) :
    ConfigsKept ((versions.keys.map fun version => (makeConfigKey name version, none)).foldl
      BatchOp.apply db) (configs.erase name) := by
  let keys : List Bytes := versions.keys.map fun version => makeConfigKey name version
  have batch : (versions.keys.map fun version => ((makeConfigKey name version, none) : BatchOp)) =
      keys.map fun k => (k, none) := by simp [keys]
  have erased : ∀ version info, find configs name version = some info →
      makeConfigKey name version ∈ keys := by
    intro version info hf
    rw [find_of_lookup found] at hf
    have mem : version ∈ versions := Table.mem_iff_lookup.mpr ⟨info, hf⟩
    exact List.mem_map.mpr ⟨version, by simpa using mem, rfl⟩
  rw [batch]
  refine h.shrink h.noEmpty.erase ?_ ?_ ?_
  · intro name' version' info hf
    by_cases same : name = name'
    · subst name'
      rw [find_erase_self] at hf
      simp at hf
    · rw [find_erase_ne same] at hf
      have kept : makeConfigKey name' version' ∉ keys := by
        intro mem
        obtain ⟨version, hversion, eq⟩ := List.mem_map.mp mem
        obtain ⟨info', hinfo'⟩ := Table.mem_iff_lookup.mp (by simpa using hversion)
        have stored : find configs name version = some info' := by
          rw [find_of_lookup found, hinfo']
        exact same (h.distinct _ _ _ _ _ _ stored hf eq).1
      rw [lookup_eraseBatch, if_neg kept]
      exact ⟨hf, rfl⟩
  · intro name' version' info value hf hv
    rw [lookup_eraseBatch] at hv
    by_cases same : name = name'
    · subst name'
      rw [if_pos (erased version' info hf)] at hv
      simp at hv
    · rw [find_erase_ne same]
      exact hf
  · intro key value hv
    rw [lookup_eraseBatch] at hv
    exact (Option.ite_none_left_eq_some.mp hv).2

/-- The create passes its checks. -/
def CreateAccepted (request : DiscoveryManagerRequest) (configs : ConfigTable) : Prop :=
  let version := request.configInfo.version.getD kDefaultVersion
  let versions := configs.getD request.configInfo.name default
  versions[version]? = none ∧
    (newestVersion versions).all (fun newest => compare newest version = .lt) = true

/-- The database works. A create that is accepted names its version, can be
serialised, and does not share its key with another config; a removal does not share
the key of another config either. -/
def ConfigSafe (serialises : MetaValue → Bool) (r : Replica) : DiscoveryEvent → Prop
  | .apply request env =>
    env.dbOk = true ∧
    (request.opType = .opCreateConfig → CreateAccepted request r.memory.configs →
      request.configInfo.version.isSome = true ∧
      serialises (.configInfo request.configInfo) = true ∧
      ¬ Clash r.memory.configs request.configInfo.name
        (request.configInfo.version.getD kDefaultVersion)) ∧
    (request.opType = .opRemoveConfig → ∀ version ∈ request.configInfo.version,
      request.configInfo.name ∈ r.memory.configs →
      ¬ Clash r.memory.configs request.configInfo.name version)
  | .reload => True
  | .restart => True

theorem configsKept_step {request : DiscoveryManagerRequest} {env : Env} {r : Replica}
    {p : Plan ConfigTable} (h : ConfigsKept r.db r.memory.configs)
    (safe : ConfigSafe serialises r (.apply request env))
    (step : ConfigStep request r.memory.configs p) :
    ConfigsKept (p.run serialises env.dbOk r.db).1.1 (p.run serialises env.dbOk r.db).1.2 := by
  obtain ⟨works, create, remove⟩ := safe
  cases step with
  | refused => exact h
  | created version versions op keyed read absent newer =>
    have accepted : CreateAccepted request r.memory.configs := by
      rw [CreateAccepted, keyed, read]
      exact ⟨absent, newer⟩
    obtain ⟨given, fits, noClash⟩ := create op accepted
    have versioned : request.configInfo.version = some version := by
      obtain ⟨v, hv⟩ := Option.isSome_iff_exists.mp given
      rw [hv] at keyed
      rw [hv, ← keyed]
      rfl
    rw [keyed] at noClash
    have kept := h.create versioned noClash
    rw [put, read] at kept
    simpa [Plan.run, fits, works, BatchOp.apply] using kept
  | removedAll versions op all found =>
    have kept := h.removeAll found
    simpa [Plan.run, works] using kept
  | removed version versions op one found =>
    have present : request.configInfo.name ∈ r.memory.configs :=
      Table.mem_iff_lookup.mpr ⟨versions, found⟩
    have kept := h.remove found (remove op version one present)
    simpa [Plan.run, works, Nested.remove, BatchOp.apply] using kept

/-- The version is recomputed from the stored message, and gives the same table. -/
theorem loadConfigs_eq {db : MetaDb} {configs : ConfigTable} (h : ConfigsKept db configs) :
    loadConfigs db = some configs := by
  let entry : Bytes × ConfigInfo → Bytes × MetaValue := fun e => (e.1, .configInfo e.2)
  let read : ConfigTable → Bytes × ConfigInfo → ConfigTable := fun c e =>
    put c e.2.name (storedVersion e.2) e.2
  have distinct : Function.Injective entry := by
    intro a b eq
    obtain ⟨key, value⟩ := Prod.mk.inj eq
    exact Prod.ext key (MetaValue.configInfo.inj value)
  have reads : ∀ c e, loadConfigSnapshot c (entry e) = some (read c e) := fun _ _ => rfl
  have recorded : ∀ key value, configIdentify.isPrefixOf key = true → db[key]? = some value →
      ∃ e, entry e = (key, value) := by
    intro key value here hv
    obtain ⟨name, version, info, _, _, rfl⟩ := h.recorded key value here hv
    exact ⟨(key, info), rfl⟩
  obtain ⟨rs, lists, loaded⟩ := Replay.scan_foldlM reads recorded ∅
  -- a record is listed exactly for a stored config, which it names itself
  have listed : ∀ e ∈ rs, find configs e.2.name (storedVersion e.2) = some e.2 := by
    intro e he
    obtain ⟨hv, here⟩ := (lists _ _).mp ⟨e, he, rfl⟩
    obtain ⟨name, version, info, found, _, eq⟩ := h.recorded _ _ here hv
    cases MetaValue.configInfo.inj eq
    obtain ⟨named, versioned⟩ := h.named name version _ found
    rw [named, storedVersion, versioned]
    exact found
  let look : ConfigTable → Bytes × ModuleVersion → Option ConfigInfo := fun c i => find c i.1 i.2
  let key : Bytes × ConfigInfo → Bytes × ModuleVersion := fun e => (e.2.name, storedVersion e.2)
  have other : ∀ c e i, key e ≠ i → look (read c e) i = look c i := fun _ _ _ ne => find_put_ne ne
  have all : rs.foldl read ∅ = configs := by
    apply Nested.ext ?_ h.noEmpty
    · intro name version
      cases found : find configs name version with
      | some info =>
        obtain ⟨named, versioned⟩ := h.named name version info found
        have mem : (makeConfigKey name version, info) ∈ rs :=
          (lists.mem_iff distinct (makeConfigKey_isPrefixOf name version)).mpr
            (h.stored name version info found)
        refine Fold.lookup_of_found look key (i := (name, version)) other
          (fun _ _ => find_put_self) ⟨_, mem, ?_⟩ ?_ ∅
        · have keyed : key (makeConfigKey name version, info) = (info.name, storedVersion info) := rfl
          rw [keyed, named, storedVersion, versioned]
          rfl
        · intro e he same
          obtain ⟨rfl, rfl⟩ := Prod.mk.inj same
          rw [listed e he] at found
          exact Option.some.inj found
      | none =>
        have absent : ∀ e ∈ rs, (e.2.name, storedVersion e.2) ≠ (name, version) := by
          intro e he same
          obtain ⟨rfl, rfl⟩ := Prod.mk.inj same
          rw [listed e he] at found
          simp at found
        have kept := Fold.lookup_of_absent look key other absent ∅
        exact kept.trans (by simp [look, find])
    · clear loaded lists listed
      have folded : ∀ c : ConfigTable, NoEmpty c → NoEmpty (rs.foldl read c) := by
        induction rs with
        | nil => exact fun c hc => hc
        | cons e rs ih => exact fun c hc => ih _ hc.put
      exact folded ∅ noEmpty_empty
  rw [loadConfigs, records, loaded, all]

theorem reachable_configsKept {r : Replica}
    (h : Reachable serialises (ConfigSafe serialises) r) : ConfigsKept r.db r.memory.configs := by
  refine configs_invariant configsKept_empty ?_ ?_ ?_ h
  · exact fun same kept => kept.frame same
  · intro r request env p kept safe hp
    exact configsKept_step kept safe (configsPlan_step hp)
  · intro db configs configs' kept load
    rw [loadConfigs_eq kept] at load
    cases Option.some.inj load
    exact kept

/-- Loading the database gives the configs in memory, and a config carries the
version it is stored under. -/
def ConfigsSurvive (r : Replica) : Prop :=
  loadConfigs r.db = some r.memory.configs ∧
    ∀ (name : Bytes) (versions : VersionTable) (version : ModuleVersion) (info : ConfigInfo),
      r.memory.configs[name]? = some versions → versions[version]? = some info →
      info.version = some version

theorem configs_survive {r : Replica} (h : Reachable serialises (ConfigSafe serialises) r) :
    ConfigsSurvive r := by
  have kept := reachable_configsKept h
  refine ⟨loadConfigs_eq kept, ?_⟩
  intro name versions version info found entry
  have stored : find r.memory.configs name version = some info := by
    rw [find_of_lookup found, entry]
  exact (kept.named name version info stored).2

instance (configs : ConfigTable) (name : Bytes) (version : ModuleVersion) :
    Decidable (Clash configs name version) :=
  decidable_of_iff (∃ e ∈ configs.toList, ∃ f ∈ e.2.toList, (e.1, f.1) ≠ (name, version) ∧
      makeConfigKey e.1 f.1 = makeConfigKey name version) <| by
    constructor
    · intro ⟨⟨name', versions⟩, he, ⟨version', info⟩, hf, ne, eq⟩
      have found := Std.ExtTreeMap.mem_toList_iff_getElem?_eq_some.mp he
      have entry := Std.ExtTreeMap.mem_toList_iff_getElem?_eq_some.mp hf
      exact ⟨name', version', info, find_eq_some.mpr ⟨versions, found, entry⟩, ne, eq⟩
    · intro ⟨name', version', info, found, ne, eq⟩
      obtain ⟨versions, found, entry⟩ := find_eq_some.mp found
      exact ⟨(name', versions), Std.ExtTreeMap.mem_toList_iff_getElem?_eq_some.mpr found,
        (version', info), Std.ExtTreeMap.mem_toList_iff_getElem?_eq_some.mpr entry, ne, eq⟩

instance (request : DiscoveryManagerRequest) (configs : ConfigTable) :
    Decidable (CreateAccepted request configs) := by
  unfold CreateAccepted
  infer_instance

instance (r : Replica) (e : DiscoveryEvent) : Decidable (ConfigSafe serialises r e) :=
  match e with
  | .apply .. => inferInstanceAs (Decidable (_ ∧ _))
  | .reload => isTrue trivial
  | .restart => isTrue trivial

def configEvent (opType : OpType) (name : String) (version : Option ModuleVersion) :
    DiscoveryEvent :=
  .apply { opType := opType, configInfo := { name := ascii name, version := version } } ⟨0, true⟩

/-- Two versions of one config, of which the first is removed again. -/
def configEvents : List DiscoveryEvent :=
  [configEvent .opCreateConfig "app" (some ⟨1, 0, 0⟩),
    configEvent .opCreateConfig "app" (some ⟨1, 2, 0⟩),
    configEvent .opRemoveConfig "app" (some ⟨1, 0, 0⟩)]

theorem configs_survive_removal :
    ∃ r, configEvents.foldlM (fun r e => if ConfigSafe (fun _ => true) r e then
        Replica.step (fun _ => true) r e else none) {} = some r ∧
      ConfigsSurvive r ∧ (find r.memory.configs (ascii "app") ⟨1, 2, 0⟩).isSome = true := by
  have run : (configEvents.foldlM (fun r e => if ConfigSafe (fun _ => true) r e then
      Replica.step (fun _ => true) r e else none) {}).map
        (fun r => (find r.memory.configs (ascii "app") ⟨1, 2, 0⟩).isSome) = some true := by decide
  obtain ⟨r, hr, present⟩ := Option.map_eq_some_iff.mp run
  exact ⟨r, hr, configs_survive (Reach.From.of_checked hr), present⟩

/-- Requests on configs while the database works. -/
def ConfigEvent : DiscoveryEvent → Prop
  | .apply request env =>
    request.opType ∈ ([.opCreateConfig, .opRemoveConfig] : List OpType) ∧ env.dbOk = true
  | .reload => False
  | .restart => False

/-- A config created without a version is kept under 0.0.1 and comes back under 0.0.0. -/
theorem unversioned_config_moves :
    ¬ ∀ r, Reachable (fun _ => true) (fun _ e => ConfigEvent e) r → ConfigsSurvive r := by
  intro survive
  have run : ([configEvent .opCreateConfig "app" none].foldlM (Replica.step fun _ => true) {}).map
      (fun r => ((find r.memory.configs (ascii "app") ⟨0, 0, 1⟩).isSome,
        (loadConfigs r.db).map fun c => (find c (ascii "app") ⟨0, 0, 1⟩).isSome)) =
      some (true, some false) := by decide
  obtain ⟨r, hr, eq⟩ := Option.map_eq_some_iff.mp run
  obtain ⟨inMemory, loaded⟩ := Prod.mk.inj eq
  have reached : Reachable (fun _ => true) (fun _ e => ConfigEvent e) r := by
    refine Reach.From.of_foldlM (fun _ e he => ?_) hr
    cases List.mem_singleton.mp he
    exact ⟨by simp, rfl⟩
  rw [(survive r reached).1, Option.map_some, inMemory] at loaded
  simp at loaded

end EA
