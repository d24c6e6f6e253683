import EA.ConfigSnapshot
import EA.DiscoveryQuery

namespace EA

open ByteString Nested

variable {serialises : MetaValue → Bool}

/-- The version lies above every stored version of the name. -/
def AboveStored (configs : ConfigTable) (name : Bytes) (version : ModuleVersion) : Prop :=
  ∀ old info, find configs name old = some info → compare old version = .lt

/-- The version that a create asks for, the default one if it names none. -/
def DiscoveryManagerRequest.createdVersion (request : DiscoveryManagerRequest) : ModuleVersion :=
  request.configInfo.version.getD kDefaultVersion

theorem AboveStored.absent {configs : ConfigTable} {name : Bytes} {version : ModuleVersion}
    (h : AboveStored configs name version) : find configs name version = none := by
  cases found : find configs name version with
  | none => rfl
  | some info =>
    have below := h version info found
    have self : compare version version = .eq := Std.ReflCmp.compare_self
    rw [self] at below
    cases below

theorem newestVersion_lt {versions : VersionTable} {version : ModuleVersion} :
    (newestVersion versions).all (fun newest => compare newest version = .lt) = true ↔
      ∀ (old : ModuleVersion) (info : ConfigInfo), versions[old]? = some info →
        compare old version = .lt := by
  rw [newestVersion, Table.getLast?_keys]
  cases last : versions.toList.getLast? with
  | none =>
    have empty : versions.toList = [] := List.getLast?_eq_none_iff.mp last
    constructor
    · intro _ old info found
      have mem := Std.ExtTreeMap.mem_toList_iff_getElem?_eq_some.mpr found
      rw [empty] at mem
      simp at mem
    · exact fun _ => rfl
  | some newest =>
    obtain ⟨found, greatest⟩ := Table.getLast?_toList last
    constructor
    · intro above old info held
      have below : compare newest.1 version = .lt := by simpa using above
      rcases greatest old info held with rfl | less
      · exact below
      · exact Std.TransCmp.lt_trans less below
    · intro below
      simpa using below newest.1 newest.2 found

theorem createAccepted_iff {request : DiscoveryManagerRequest} {configs : ConfigTable} :
    CreateAccepted request configs ↔
      AboveStored configs request.configInfo.name request.createdVersion := by
  have above : AboveStored configs request.configInfo.name request.createdVersion ↔
      ∀ (old : ModuleVersion) (info : ConfigInfo),
        (configs.getD request.configInfo.name default)[old]? = some info →
        compare old request.createdVersion = .lt := by
    unfold AboveStored
    simp only [find_getD]
  constructor
  · rintro ⟨_, newer⟩
    exact above.mpr (newestVersion_lt.mp newer)
  · intro h
    refine ⟨?_, newestVersion_lt.mpr (above.mp h)⟩
    rw [find_getD]
    exact h.absent

theorem createConfig_accepted {request : DiscoveryManagerRequest} {configs : ConfigTable}
    (h : AboveStored configs request.configInfo.name request.createdVersion) :
    createConfig request configs = .write (some (.configInfo request.configInfo))
      [(makeConfigKey request.configInfo.name request.createdVersion,
        some (.configInfo request.configInfo))] "write db fail"
      (Table.touch configs request.configInfo.name)
      (put configs request.configInfo.name request.createdVersion request.configInfo) := by
  obtain ⟨absent, newer⟩ := createAccepted_iff.mpr h
  unfold createConfig
  dsimp only
  rw [Table.getD_touch, if_neg, if_neg, Table.insert_touch]
  · rfl
  · intro notNewer
    cases newest : newestVersion (configs.getD request.configInfo.name default) with
    | none => simp [newest] at notNewer
    | some v => simp_all
  · intro stored
    obtain ⟨info, found⟩ := Table.mem_iff_lookup.mp stored
    rw [absent] at found
    cases found

theorem createConfig_refused {request : DiscoveryManagerRequest} {configs : ConfigTable}
    (op : request.opType = .opCreateConfig)
    (h : ¬ AboveStored configs request.configInfo.name request.createdVersion) :
    ∃ errcode errmsg, errcode ≠ .success ∧
      createConfig request configs = .refuse errcode errmsg configs := by
  have step := createConfig_step configs op
  generalize createConfig request configs = p at step
  cases step with
  | refused errcode errmsg code => exact ⟨errcode, errmsg, code, rfl⟩
  | created version versions _ keyed read absent newer =>
    refine absurd (createAccepted_iff.mp ?_) h
    rw [CreateAccepted, keyed, read]
    exact ⟨absent, newer⟩
  | removedAll _ other => simp [op] at other
  | removed _ _ other => simp [op] at other

/-- What an entry can do to the stored configs: a create puts one version above all
others of its name, a removal takes away versions of its name. -/
structure ConfigsMove (request : DiscoveryManagerRequest) (configs configs' : ConfigTable) :
    Prop where
  old_or_new : ∀ name version info, find configs' name version = some info →
    find configs name version = some info ∨
      request.opType = .opCreateConfig ∧ name = request.configInfo.name ∧
        AboveStored configs name version
  stays : ∀ name version info, find configs name version = some info →
    find configs' name version = some info ∨
      request.opType = .opRemoveConfig ∧ name = request.configInfo.name

theorem ConfigsMove.of_same {request : DiscoveryManagerRequest} {configs configs' : ConfigTable}
    (same : ∀ name version, find configs' name version = find configs name version) :
    ConfigsMove request configs configs' where
  old_or_new name version _ found := Or.inl (same name version ▸ found)
  stays name version _ found := Or.inl ((same name version).trans found)

theorem configsMove_put {request : DiscoveryManagerRequest} {configs : ConfigTable}
    {version : ModuleVersion} (op : request.opType = .opCreateConfig)
    (above : AboveStored configs request.configInfo.name version) :
    ConfigsMove request configs
      (put configs request.configInfo.name version request.configInfo) where
  old_or_new name' version' info found := by
    by_cases same : (request.configInfo.name, version) = (name', version')
    · obtain ⟨rfl, rfl⟩ := Prod.mk.inj same
      exact Or.inr ⟨op, rfl, above⟩
    · rw [find_put_ne same] at found
      exact Or.inl found
  stays name' version' info found := by
    by_cases same : (request.configInfo.name, version) = (name', version')
    · obtain ⟨rfl, rfl⟩ := Prod.mk.inj same
      rw [above.absent] at found
      cases found
    · exact Or.inl ((find_put_ne same).trans found)

/-- A table that differs from the old one only by missing versions of the name. -/
theorem configsMove_less {request : DiscoveryManagerRequest} {configs configs' : ConfigTable}
    (op : request.opType = .opRemoveConfig)
    (less : ∀ name version info, find configs' name version = some info →
      find configs name version = some info)
    (others : ∀ name version, request.configInfo.name ≠ name →
      find configs' name version = find configs name version) :
    ConfigsMove request configs configs' where
  old_or_new name version info found := Or.inl (less name version info found)
  stays name version info found := by
    by_cases same : request.configInfo.name = name
    · exact Or.inr ⟨op, same.symm⟩
    · exact Or.inl ((others name version same).trans found)

theorem ConfigStep.moves {request : DiscoveryManagerRequest} {configs : ConfigTable}
    {p : Plan ConfigTable} (step : ConfigStep request configs p) (db : MetaDb) :
    p.Preserves (fun _ configs' => ConfigsMove request configs configs') db := by
  cases step with
  | refused => exact .of_same fun _ _ => rfl
  | created version versions op keyed read absent newer =>
    subst read
    have above : AboveStored configs request.configInfo.name version := by
      rw [← keyed]
      refine createAccepted_iff.mp ?_
      rw [CreateAccepted, keyed]
      exact ⟨absent, newer⟩
    exact ⟨.of_same fun name version => find_touch .., configsMove_put op above⟩
  | removedAll versions op all found =>
    refine ⟨.of_same fun _ _ => rfl, configsMove_less op ?_ ?_⟩
    · intro name version info held
      by_cases same : request.configInfo.name = name
      · subst same
        rw [find_erase_self] at held
        cases held
      · rwa [find_erase_ne same] at held
    · exact fun name version ne => find_erase_ne ne
  | removed version versions op one found =>
    have away : ∀ name' version', (request.configInfo.name, version) ≠ (name', version') →
        find (remove configs request.configInfo.name version versions) name' version' =
          find configs name' version' := fun name' version' ne => find_remove_ne found ne
    refine ⟨.of_same fun _ _ => rfl, configsMove_less op ?_ ?_⟩
    · intro name' version' info held
      by_cases same : (request.configInfo.name, version) = (name', version')
      · obtain ⟨rfl, rfl⟩ := Prod.mk.inj same
        have gone := find_remove_self (m := configs) (k := request.configInfo.name)
          (i := version) (t := versions)
        exact absurd (gone.symm.trans held) (by simp)
      · rwa [← away name' version' same]
    · intro name' version' ne
      exact away name' version' fun same => ne (Prod.mk.inj same).1

theorem onApply_configsMove (serialises : MetaValue → Bool) (request : DiscoveryManagerRequest)
    (env : Env) (r : Replica) :
    ConfigsMove request r.memory.configs
      (onApply serialises request env r).1.memory.configs := by
  have applied := onApply_applied serialises request env r
  generalize onApply serialises request env r = out at applied
  cases applied with
  | configs p h => exact Plan.run_preserves ((configsPlan_step h).moves r.db)
  | schema | users | instances | unknown => exact .of_same fun _ _ => rfl

/-- A stored version that is still stored has the content it had. -/
theorem ConfigsMove.content {request : DiscoveryManagerRequest} {configs configs' : ConfigTable}
    (h : ConfigsMove request configs configs') {name : Bytes} {version : ModuleVersion}
    {info info' : ConfigInfo} (before : find configs name version = some info)
    (after : find configs' name version = some info') : info' = info := by
  rcases h.old_or_new name version info' after with old | ⟨_, _, above⟩
  · exact Option.some.inj (old.symm.trans before)
  · rw [above.absent] at before
    cases before

theorem createConfig_success {request : DiscoveryManagerRequest}
    (op : request.opType = .opCreateConfig) {env : Env} {r : Replica} :
    (onApply serialises request env r).2.errcode = .success ↔
      AboveStored r.memory.configs request.configInfo.name request.createdVersion ∧
        serialises (.configInfo request.configInfo) = true ∧ env.dbOk = true := by
  rw [onApply_configs (configsPlan_create op r.memory.configs)]
  by_cases above : AboveStored r.memory.configs request.configInfo.name request.createdVersion
  · rw [createConfig_accepted above]
    by_cases fits : serialises (.configInfo request.configInfo) = true
    · by_cases works : env.dbOk = true
      · simp [Plan.run, fits, works, above]
      · simp [Plan.run, fits, works]
    · simp [Plan.run, fits]
  · obtain ⟨errcode, errmsg, code, refused⟩ := createConfig_refused op above
    rw [refused]
    exact iff_of_false code fun h => above h.1

theorem createConfig_find {request : DiscoveryManagerRequest}
    (op : request.opType = .opCreateConfig) {env : Env} {r : Replica} (name : Bytes)
    (version : ModuleVersion) :
    find (onApply serialises request env r).1.memory.configs name version =
      if (onApply serialises request env r).2.errcode = .success ∧
          (request.configInfo.name, request.createdVersion) = (name, version) then
        some request.configInfo
      else find r.memory.configs name version := by
  rw [onApply_configs (configsPlan_create op r.memory.configs)]
  by_cases above : AboveStored r.memory.configs request.configInfo.name request.createdVersion
  · rw [createConfig_accepted above]
    have ends := (createConfig request r.memory.configs).run_ends serialises env.dbOk r.db
    rw [createConfig_accepted above] at ends
    generalize Plan.run serialises env.dbOk r.db _ = out at ends
    cases ends with
    | refused _ _ _ eq => cases eq
    | failed _ _ _ _ _ _ eq _ code =>
      cases eq
      rw [if_neg fun h => code h.1]
      exact find_touch ..
    | written _ _ _ _ _ eq =>
      cases eq
      by_cases same : (request.configInfo.name, request.createdVersion) = (name, version)
      · obtain ⟨rfl, rfl⟩ := Prod.mk.inj same
        rw [if_pos ⟨rfl, rfl⟩]
        exact find_put_self
      · rw [if_neg fun h => same h.2]
        exact find_put_ne same
  · obtain ⟨errcode, errmsg, code, refused⟩ := createConfig_refused op above
    rw [refused, if_neg fun h => code h.1]
    rfl

/-- A name with a stored version answers with the greatest one. -/
theorem getConfig_newest {request : DiscoveryQueryRequest} {configs : ConfigTable} {name : Bytes}
    (named : request.configName = some name) (unversioned : request.configVersion = none)
    {version : ModuleVersion} {info : ConfigInfo} (found : find configs name version = some info) :
    ∃ newest info', find configs name newest = some info' ∧
      (∀ old info, find configs name old = some info →
        old = newest ∨ compare old newest = .lt) ∧
      getConfig request configs = { configInfos := [info'] } := by
  obtain ⟨versions, held, entry⟩ := find_eq_some.mp found
  simp only [getConfig, named, unversioned, held]
  cases last : versions.toList.getLast? with
  | none =>
    have mem := Std.ExtTreeMap.mem_toList_iff_getElem?_eq_some.mpr entry
    rw [List.getLast?_eq_none_iff.mp last] at mem
    simp at mem
  | some newest =>
    obtain ⟨here, greatest⟩ := Table.getLast?_toList last
    refine ⟨newest.1, newest.2, (find_of_lookup held).trans here, ?_, rfl⟩
    intro old info stored
    rw [find_of_lookup held] at stored
    exact greatest old info stored

/-- Entries that do not remove the name, whatever the database does. -/
def KeepsName (name : Bytes) : DiscoveryEvent → Prop
  | .apply request _ => request.opType = .opRemoveConfig → request.configInfo.name ≠ name
  | .reload => False
  | .restart => False

/-- While a name is not removed, its versions stay and later ones lie above them. -/
theorem versions_grow {r r' : Replica} {name : Bytes}
    (h : Reach.From (Replica.step serialises) (fun _ e => KeepsName name e) r r') :
    (∀ version info, find r.memory.configs name version = some info →
      find r'.memory.configs name version = some info) ∧
    (∀ version info, find r'.memory.configs name version = some info →
      find r.memory.configs name version = some info ∨
        AboveStored r.memory.configs name version) := by
  induction h with
  | start => exact ⟨fun _ _ found => found, fun _ _ found => Or.inl found⟩
  | @next s t e reach keeps hs ih =>
    obtain ⟨stay, come⟩ := ih
    cases e with
    | reload => exact keeps.elim
    | restart => exact keeps.elim
    | apply request env =>
      cases Option.some.inj hs
      have moves := onApply_configsMove serialises request env s
      constructor
      · intro version info found
        rcases moves.stays name version info (stay version info found) with after | ⟨op, same⟩
        · exact after
        · exact absurd same.symm (keeps op)
      · intro version info found
        rcases moves.old_or_new name version info found with before | ⟨_, _, above⟩
        · exact come version info before
        · exact Or.inr fun old info' held => above old info' (stay old info' held)

/-- What a create, any entry, a query and a run do to the versions of a config. -/
structure ConfigLaw (serialises : MetaValue → Bool) (r : Replica) : Prop where
  create : ∀ request env, request.opType = .opCreateConfig → env.dbOk = true →
    ((onApply serialises request env r).2.errcode = .success ↔
      AboveStored r.memory.configs request.configInfo.name request.createdVersion ∧
        serialises (.configInfo request.configInfo) = true)
  added : ∀ request env name version, request.opType = .opCreateConfig →
    find (onApply serialises request env r).1.memory.configs name version =
      if (onApply serialises request env r).2.errcode = .success ∧
          (request.configInfo.name, request.createdVersion) = (name, version) then
        some request.configInfo
      else find r.memory.configs name version
  content : ∀ request env name version info info',
    find r.memory.configs name version = some info →
    find (onApply serialises request env r).1.memory.configs name version = some info' →
    info' = info
  newest : ∀ request name version info, request.configName = some name →
    request.configVersion = none → find r.memory.configs name version = some info →
    ∃ newest info', find r.memory.configs name newest = some info' ∧
      (∀ old info, find r.memory.configs name old = some info →
        old = newest ∨ compare old newest = .lt) ∧
      getConfig request r.memory.configs = { configInfos := [info'] }
  grows : ∀ r' name,
    Reach.From (Replica.step serialises) (fun _ e => KeepsName name e) r r' →
    (∀ version info, find r.memory.configs name version = some info →
      find r'.memory.configs name version = some info) ∧
    ∀ version info, find r'.memory.configs name version = some info →
      find r.memory.configs name version = some info ∨
        AboveStored r.memory.configs name version

/-- Config versions only grow, and none is overwritten. -/
theorem config_versions_ascend (serialises : MetaValue → Bool) (r : Replica) :
    ConfigLaw serialises r where
  create request env op works := by
    rw [createConfig_success op]
    simp only [works, and_true]
  added request env name version op := createConfig_find op name version
  content request env name version info info' before after :=
    (onApply_configsMove serialises request env r).content before after
  newest request name version info named unversioned found :=
    getConfig_newest named unversioned found
  grows r' name h := versions_grow h

end EA
