import EA.ClientListings
import EA.ConfigClient
import EA.Lib.Nested

namespace EA

open ByteString Nested

/-- `get_config_latest`, which `period_check` calls for every watched name. -/
def DiscoveryClient.getConfigLatest (query : QuerySender) (configName : Bytes) :
    Except Status ConfigInfo :=
  match ask query { opType := .queryGetConfig, configName := some configName } with
  | .error err => .error err
  | .ok response =>
    match response.configInfos with
    | [config] => .ok config
    | _ => .error ⟨.invalidArgument, ascii "bad proto for config list size not 1"⟩

/-- Every config is stored under its own name. -/
def ConfigsNamed (configs : ConfigTable) : Prop :=
  ∀ name version info, find configs name version = some info → info.name = name

theorem configsNamed_empty : ConfigsNamed ∅ := by
  intro name version info found
  simp [find] at found

theorem ConfigsNamed.put {configs : ConfigTable} (h : ConfigsNamed configs) (info : ConfigInfo)
    (version : ModuleVersion) : ConfigsNamed (put configs info.name version info) := by
  intro name' version' info' found
  by_cases same : (info.name, version) = (name', version')
  · obtain ⟨rfl, rfl⟩ := Prod.mk.inj same
    rw [find_put_self] at found
    cases Option.some.inj found
    rfl
  · rw [find_put_ne same] at found
    exact h name' version' info' found

theorem ConfigsNamed.less {configs configs' : ConfigTable} (h : ConfigsNamed configs)
    (less : ∀ name version info, find configs' name version = some info →
      find configs name version = some info) : ConfigsNamed configs' := by
  intro name version info found
  exact h name version info (less name version info found)

theorem ConfigsNamed.touch {configs : ConfigTable} (h : ConfigsNamed configs) (name : Bytes) :
    ConfigsNamed (Table.touch configs name) := by
  refine h.less fun name' version info found => ?_
  rwa [find_touch] at found

theorem ConfigsNamed.erase {configs : ConfigTable} (h : ConfigsNamed configs) (name : Bytes) :
    ConfigsNamed (configs.erase name) := by
  refine h.less fun name' version info found => ?_
  by_cases same : name = name'
  · subst name'
    rw [find_erase_self] at found
    cases found
  · rwa [find_erase_ne same] at found

theorem ConfigsNamed.remove {configs : ConfigTable} (h : ConfigsNamed configs) {name : Bytes}
    {version : ModuleVersion} {versions : VersionTable} (held : configs[name]? = some versions) :
    ConfigsNamed (remove configs name version versions) := by
  refine h.less fun name' version' info found => ?_
  by_cases same : (name, version) = (name', version')
  · obtain ⟨rfl, rfl⟩ := Prod.mk.inj same
    rw [find_remove_self] at found
    cases found
  · rwa [find_remove_ne held same] at found

theorem configsNamed_step {request : DiscoveryManagerRequest} {db : MetaDb} {configs : ConfigTable}
    {p : Plan ConfigTable} (h : ConfigsNamed configs) (step : ConfigStep request configs p) :
    p.Preserves (fun _ configs => ConfigsNamed configs) db := by
  cases step with
  | refused => exact h
  | created version versions op keyed read absent newer =>
    have kept := h.put request.configInfo version
    rw [Nested.put, read] at kept
    exact ⟨h.touch _, kept⟩
  | removedAll versions op all found => exact ⟨h, h.erase _⟩
  | removed version versions op one found => exact ⟨h, h.remove found⟩

/-- A loaded message names the entry that it is put in. -/
theorem loadConfigs_named {db : MetaDb} {configs : ConfigTable} (load : loadConfigs db = some configs) :
    ConfigsNamed configs := by
  have run : Reach.From loadConfigSnapshot (fun _ _ => True) ∅ configs :=
    Reach.From.of_foldlM (fun _ _ _ => trivial) load
  refine run.invariant configsNamed_empty ?_
  intro c e c' _ named _ read
  unfold loadConfigSnapshot at read
  split at read
  next info _ =>
    cases Option.some.inj read
    exact named.put info (storedVersion info)
  next => simp at read

theorem reachable_configsNamed {serialises : MetaValue → Bool}
    {ok : Replica → DiscoveryEvent → Prop} {r : Replica} (h : Reachable serialises ok r) :
    ConfigsNamed r.memory.configs := by
  refine configs_invariant (I := fun _ configs => ConfigsNamed configs) configsNamed_empty ?_ ?_ ?_ h
  · exact fun _ named => named
  · intro r request env p named _ hp
    exact Plan.run_preserves (configsNamed_step named (configsPlan_step hp))
  · exact fun _ _ _ _ load => loadConfigs_named load

/-- What is returned is the newest version of the name. -/
theorem getConfigLatest_eq_ok {trim : Bytes → Bytes} {order : HashOrder} {m : Memory}
    {name : Bytes} {info : ConfigInfo}
    (answer : DiscoveryClient.getConfigLatest (m.serve trim order) name = .ok info) :
    ∃ versions version, m.configs[name]? = some versions ∧
      versions.toList.getLast? = some (version, info) := by
  simp only [DiscoveryClient.getConfigLatest, DiscoveryClient.ask, Memory.serve, discoveryQuery,
    getConfig] at answer
  cases found : m.configs[name]? with
  | none => simp [found, inputParamError] at answer
  | some versions =>
    cases newest : versions.toList.getLast? with
    | none => simp [found, newest, inputParamError] at answer
    | some entry =>
      obtain ⟨version, config⟩ := entry
      have same : config = info := by simpa [found, newest] using answer
      subst config
      exact ⟨versions, version, rfl, newest⟩

/-- What a server that runs reached answers to the check of a name is a config of the name. -/
theorem fromServer_latest {serialises : MetaValue → Bool}
    {ok : Replica → DiscoveryEvent → Prop} {r : Replica} (h : Reachable serialises ok r)
    (trim : Bytes → Bytes) (order : HashOrder) (name : Bytes) :
    FromServer (.check name
      (DiscoveryClient.getConfigLatest (r.memory.serve trim order) name)) := by
  cases answer : DiscoveryClient.getConfigLatest (r.memory.serve trim order) name with
  | error err => trivial
  | ok info =>
    obtain ⟨versions, version, found, newest⟩ := getConfigLatest_eq_ok answer
    have mem : (version, info) ∈ versions.toList := List.mem_of_getLast? newest
    have stored : versions[version]? = some info :=
      Std.ExtTreeMap.mem_toList_iff_getElem?_eq_some.mp mem
    have held : find r.memory.configs name version = some info :=
      find_eq_some.mpr ⟨versions, found, stored⟩
    exact reachable_configsNamed h name version info held

end EA
