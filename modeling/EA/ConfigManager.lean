import EA.MetaDb

namespace EA

abbrev VersionTable := Table ModuleVersion ConfigInfo
abbrev ConfigTable := Table Bytes VersionTable

def kDefaultVersion : ModuleVersion := ⟨0, 0, 1⟩

def newestVersion (versions : VersionTable) : Option ModuleVersion := versions.keys.getLast?

theorem newestVersion_empty : newestVersion ∅ = none := rfl

def createConfig (request : DiscoveryManagerRequest) (configs : ConfigTable) :
    Plan ConfigTable :=
  let name := request.configInfo.name
  let version := request.configInfo.version.getD kDefaultVersion
  -- an unknown name gets its empty version map before anything is checked
  let touched := Table.touch configs name
  let versions := touched.getD name default
  if version ∈ versions then .refuse .inputParamError "config already exist" touched
  else if (newestVersion versions).any fun newest => compare newest version ≠ .lt then
    .refuse .inputParamError "Version numbers must increase monotonically" touched
  else
    .write (some (.configInfo request.configInfo))
      [(makeConfigKey name version, some (.configInfo request.configInfo))] "write db fail" touched
      (touched.insert name (versions.insert version request.configInfo))

def removeConfigAll (request : DiscoveryManagerRequest) (configs : ConfigTable) :
    Plan ConfigTable :=
  let name := request.configInfo.name
  match configs[name]? with
  | none => .refuse .parseToPbFail "config not exist" configs
  | some versions =>
    .write none (versions.keys.map fun version => (makeConfigKey name version, none))
      "delete from db fail" configs (configs.erase name)

def removeConfig (request : DiscoveryManagerRequest) (configs : ConfigTable) :
    Plan ConfigTable :=
  let name := request.configInfo.name
  match request.configInfo.version with
  | none => removeConfigAll request configs
  | some version =>
    match configs[name]? with
    | none => .refuse .parseToPbFail "config not exist" configs
    | some versions =>
      -- a version that is not stored answers "config not exist" without returning:
      -- the deletion below runs all the same and overwrites the answer
      let rest := versions.erase version
      .write none [(makeConfigKey name version, none)] "delete from db fail" configs
        (if rest.isEmpty then configs.erase name else configs.insert name rest)

def configsPlan (request : DiscoveryManagerRequest) (configs : ConfigTable) :
    Option (Plan ConfigTable) :=
  match request.opType with
  | .opCreateConfig => some (createConfig request configs)
  | .opRemoveConfig => some (removeConfig request configs)
  | _ => none

theorem configsPlan_create {request : DiscoveryManagerRequest}
    (op : request.opType = .opCreateConfig) (configs : ConfigTable) :
    configsPlan request configs = some (createConfig request configs) := by
  simp only [configsPlan, op]

theorem configsPlan_remove {request : DiscoveryManagerRequest}
    (op : request.opType = .opRemoveConfig) (configs : ConfigTable) :
    configsPlan request configs = some (removeConfig request configs) := by
  simp only [configsPlan, op]

/-- Everything that a request can make of the configs. A refusal never leaves the
empty version map that `create_config` makes for an unknown name. -/
inductive ConfigStep (request : DiscoveryManagerRequest) (configs : ConfigTable) :
    Plan ConfigTable → Prop
  | refused (errcode : ErrCode) (errmsg : String) (code : errcode ≠ .success) :
      ConfigStep request configs (.refuse errcode errmsg configs)
  | created (version : ModuleVersion) (versions : VersionTable)
      (op : request.opType = .opCreateConfig)
      (keyed : request.configInfo.version.getD kDefaultVersion = version)
      (read : configs.getD request.configInfo.name default = versions)
      (absent : versions[version]? = none)
      (newer : (newestVersion versions).all (fun newest => compare newest version = .lt) = true) :
      ConfigStep request configs (.write (some (.configInfo request.configInfo))
        [(makeConfigKey request.configInfo.name version, some (.configInfo request.configInfo))]
        "write db fail" (Table.touch configs request.configInfo.name)
        (configs.insert request.configInfo.name (versions.insert version request.configInfo)))
  | removedAll (versions : VersionTable)
      (op : request.opType = .opRemoveConfig) (all : request.configInfo.version = none)
      (found : configs[request.configInfo.name]? = some versions) :
      ConfigStep request configs (.write none
        (versions.keys.map fun version => (makeConfigKey request.configInfo.name version, none))
        "delete from db fail" configs (configs.erase request.configInfo.name))
  | removed (version : ModuleVersion) (versions : VersionTable)
      (op : request.opType = .opRemoveConfig) (one : request.configInfo.version = some version)
      (found : configs[request.configInfo.name]? = some versions) :
      ConfigStep request configs (.write none
        [(makeConfigKey request.configInfo.name version, none)] "delete from db fail" configs
        (if (versions.erase version).isEmpty then configs.erase request.configInfo.name
          else configs.insert request.configInfo.name (versions.erase version)))

theorem createConfig_step {request : DiscoveryManagerRequest} (configs : ConfigTable)
    (op : request.opType = .opCreateConfig) :
    ConfigStep request configs (createConfig request configs) := by
  have read : (Table.touch configs request.configInfo.name).getD request.configInfo.name default =
      configs.getD request.configInfo.name default := Table.getD_touch ..
  unfold createConfig
  dsimp only
  rw [read]
  cases found : configs[request.configInfo.name]? with
  | some versions =>
    rw [Table.touch_of_lookup found, Table.getD_eq, found]
    split
    next => exact .refused _ _ (by simp)
    next absent =>
      split
      next => exact .refused _ _ (by simp)
      next newer =>
        have ascends : (newestVersion versions).all (fun newest =>
            compare newest (request.configInfo.version.getD kDefaultVersion) = .lt) = true := by
          cases newest : newestVersion versions with
          | none => rfl
          | some v => simpa [newest] using newer
        have step := ConfigStep.created _ versions op rfl (by rw [Table.getD_eq, found]; rfl)
          (by simpa using absent) ascends
        rwa [Table.touch_of_lookup found] at step
  | none =>
    have none : configs.getD request.configInfo.name default = (∅ : VersionTable) := by
      rw [Table.getD_eq, found]
      rfl
    rw [none, if_neg (by simp), if_neg (by simp [newestVersion_empty])]
    have step := ConfigStep.created _ ∅ op rfl none (by simp)
      (by simp [newestVersion_empty])
    have again : (Table.touch configs request.configInfo.name).insert request.configInfo.name
        ((∅ : VersionTable).insert (request.configInfo.version.getD kDefaultVersion)
          request.configInfo) =
        configs.insert request.configInfo.name
          ((∅ : VersionTable).insert (request.configInfo.version.getD kDefaultVersion)
            request.configInfo) := by
      rw [Table.touch_of_none found]
      exact Table.insert_insert ..
    rw [← again] at step
    exact step

theorem removeConfig_step {request : DiscoveryManagerRequest} (configs : ConfigTable)
    (op : request.opType = .opRemoveConfig) :
    ConfigStep request configs (removeConfig request configs) := by
  unfold removeConfig
  dsimp only
  split
  next all =>
    unfold removeConfigAll
    dsimp only
    split
    next => exact .refused _ _ (by simp)
    next versions found => exact .removedAll versions op all found
  next version one =>
    split
    next => exact .refused _ _ (by simp)
    next versions found => exact .removed version versions op one found

theorem configsPlan_step {request : DiscoveryManagerRequest} {configs : ConfigTable}
    {p : Plan ConfigTable} (h : configsPlan request configs = some p) :
    ConfigStep request configs p := by
  unfold configsPlan at h
  split at h
  case h_1 op => exact Option.some.inj h ▸ createConfig_step configs op
  case h_2 op => exact Option.some.inj h ▸ removeConfig_step configs op
  case h_3 => simp at h

end EA
