import EA.ConfigCache

namespace EA

open ByteString

theorem configTypeToString_cases (types : ConfigTypes) (type : Int) :
    configTypeToString types type ∈ [ascii "json", ascii "text", ascii "ini", ascii "yaml",
      ascii "xml", ascii "gflags", ascii "toml", ascii "unknown format"] := by
  unfold configTypeToString
  repeat' split
  all_goals simp

theorem not_mem_configType (types : ConfigTypes) (type : Int) :
    46 ∉ configTypeToString types type ∧ 47 ∉ configTypeToString types type := by
  have clean : ∀ s ∈ [ascii "json", ascii "text", ascii "ini", ascii "yaml", ascii "xml",
      ascii "gflags", ascii "toml", ascii "unknown format"], 46 ∉ s ∧ 47 ∉ s := by decide
  exact clean _ (configTypeToString_cases types type)

theorem not_mem_decimal {c : UInt8} (sign : c ≠ 45) (digit : ¬ (48 ≤ c ∧ c ≤ 57)) (n : Int) :
    c ∉ decimal n := by
  intro h
  rcases mem_decimal h with eq | range
  · exact sign eq
  · exact digit range

/-- What tells two cache file paths apart. -/
def SameFile (types : ConfigTypes) (config config' : ConfigInfo) : Prop :=
  config.name = config'.name ∧ config.moduleVersion.minor = config'.moduleVersion.minor ∧
    config.moduleVersion.patch = config'.moduleVersion.patch ∧
    configTypeToString types config.type = configTypeToString types config'.type

theorem makeCacheFilePath_eq_iff {types : ConfigTypes} {dir : Bytes} {config config' : ConfigInfo} :
    makeCacheFilePath types dir config = makeCacheFilePath types dir config' ↔
      SameFile types config config' := by
  have dotless : ∀ n, 46 ∉ decimal n := not_mem_decimal (by decide) (by decide)
  constructor
  · intro h
    obtain ⟨h, type⟩ := append_separator_inj_last (not_mem_configType _ _).1
      (not_mem_configType _ _).1 h
    obtain ⟨h, patch⟩ := append_separator_inj_last (dotless _) (dotless _) h
    obtain ⟨h, minor⟩ := append_separator_inj_last (dotless _) (dotless _) h
    -- the minor version after the name is the one just read again
    rw [minor] at h
    have front := List.append_cancel_right h
    have name := List.append_cancel_left front
    exact ⟨(List.cons.inj name).2, decimal_injective minor, decimal_injective patch, type⟩
  · intro ⟨name, minor, patch, type⟩
    simp only [makeCacheFilePath, name, minor, patch, type]

theorem inDirectory_path {types : ConfigTypes} {dir : Bytes} {config : ConfigInfo}
    (named : 47 ∉ config.name) : inDirectory dir (makeCacheFilePath types dir config) = true := by
  have slashless : ∀ n, 47 ∉ decimal n := not_mem_decimal (by decide) (by decide)
  have type := (not_mem_configType types config.type).2
  simp [inDirectory, makeCacheFilePath, named, slashless, type, List.append_assoc]

section Mirror

variable {text : Type} {codec : JsonCodec text} {types : ConfigTypes} {p : CacheProcess text}
  {name : Bytes} {versions : VersionTable}

theorem JsonCodec.dump_injective (codec : JsonCodec text) : Function.Injective codec.dumpProto := by
  intro config config' h
  have loaded := codec.load_dump config
  rw [h, codec.load_dump config'] at loaded
  exact (Except.ok.inj loaded).symm

def ConfigInfo.cacheKey (config : ConfigInfo) : Bytes × ModuleVersion :=
  (config.name, config.moduleVersion)

def held (m : ConfigTable) (i : Bytes × ModuleVersion) : Option ConfigInfo :=
  Nested.find m i.1 i.2

/-- The directory holds exactly the files of the cached configs. -/
structure InStep (codec : JsonCodec text) (types : ConfigTypes) (p : CacheProcess text) : Prop where
  dir : p.cache.cacheDir ≠ []
  noEmpty : Nested.NoEmpty p.cache.cacheMap
  mirrors : Filed.Mirrors ConfigInfo.cacheKey (makeCacheFilePath types p.cache.cacheDir)
    codec.dumpProto (fun path => inDirectory p.cache.cacheDir path = true) (held p.cache.cacheMap)
    p.files

theorem held_doAddConfig_self (m : ConfigTable) (config : ConfigInfo) :
    held (doAddConfig m config) config.cacheKey = some config := Nested.find_put_self

theorem held_doAddConfig_ne (m : ConfigTable) {config : ConfigInfo} {i : Bytes × ModuleVersion}
    (ne : config.cacheKey ≠ i) : held (doAddConfig m config) i = held m i := Nested.find_put_ne ne

theorem addConfig_of_free {config : ConfigInfo}
    (free : held p.cache.cacheMap config.cacheKey = none) :
    (addConfig codec types config p).1 =
      { cache := { p.cache with cacheMap := doAddConfig p.cache.cacheMap config },
        files := writeConfigFile codec types p.cache.cacheDir config p.files } := by
  have absent : Nested.find p.cache.cacheMap config.name config.moduleVersion = none := free
  simp [addConfig, absent]

theorem InStep.add (h : InStep codec types p) {config : ConfigInfo} (named : 47 ∉ config.name)
    (free : held p.cache.cacheMap config.cacheKey = none)
    (apart : ∀ i other, held p.cache.cacheMap i = some other → ¬ SameFile types other config) :
    InStep codec types (addConfig codec types config p).1 := by
  rw [addConfig_of_free free, writeConfigFile, if_neg h.dir]
  refine ⟨h.dir, h.noEmpty.put, ?_⟩
  apply h.mirrors.put (inDirectory_path named) free
  · intro i other found same
    exact apart i other found (makeCacheFilePath_eq_iff.mp same)
  · exact held_doAddConfig_self _ _
  · exact fun i ne => held_doAddConfig_ne _ ne

/-- What the four removals have in common: some cached configs of one name go,
each with its file. -/
theorem InStep.remove (h : InStep codec types p) (found : p.cache.cacheMap[name]? = some versions)
    {rest : VersionTable} {gone : List ConfigInfo}
    (all : ∀ config ∈ gone, versions[config.moduleVersion]? = some config)
    (kept : ∀ v : ModuleVersion,
      rest[v]? = if v ∈ gone.map ConfigInfo.moduleVersion then none else versions[v]?) :
    InStep codec types
      { cache := { p.cache with cacheMap := Nested.keep p.cache.cacheMap name rest },
        files := Filed.removeAll (makeCacheFilePath types p.cache.cacheDir) gone p.files } := by
  have was_held : ∀ config ∈ gone,
      held p.cache.cacheMap (name, config.moduleVersion) = some config := by
    intro config mem
    rw [held, Nested.find_of_lookup found]
    exact all config mem
  have key : ∀ config ∈ gone, config.cacheKey = (name, config.moduleVersion) :=
    fun config mem => h.mirrors.keyed _ config (was_held config mem)
  refine ⟨h.dir, h.noEmpty.keep, ?_⟩
  apply h.mirrors.remove codec.dump_injective
  · exact fun config mem => ⟨_, was_held config mem⟩
  · intro config mem
    have dropped : config.moduleVersion ∈ gone.map ConfigInfo.moduleVersion :=
      List.mem_map_of_mem mem
    rw [key config mem, held, Nested.find_keep_self, kept, if_pos dropped]
  · intro ⟨k, v⟩ apart
    by_cases same : name = k
    · subst k
      have stays : v ∉ gone.map ConfigInfo.moduleVersion := by
        intro mem
        obtain ⟨config, hconfig, eq⟩ := List.mem_map.mp mem
        exact apart config hconfig (by rw [key config hconfig, eq])
      rw [held, held, Nested.find_keep_self, kept, if_neg stays, Nested.find_of_lookup found]
    · exact Nested.find_keep_ne same

theorem removeConfigFile_foldl {dir : Bytes} (set : dir ≠ []) (gone : List ConfigInfo)
    (files : Files text) : gone.foldl (removeConfigFile types dir) files =
      Filed.removeAll (makeCacheFilePath types dir) gone files := by
  have erases : removeConfigFile types dir =
      fun (files : Files text) config => files.erase (makeCacheFilePath types dir config) := by
    funext files config
    exact if_neg set
  rw [erases]
  rfl

theorem removeListed_of_none {dir : Bytes} {versions : VersionTable} {version : ModuleVersion}
    (absent : versions[version]? = none) (files : Files text) :
    removeListed types dir (versions, files) version = (versions, files) := by
  simp only [removeListed, absent]

theorem removeListed_of_some {dir : Bytes} {versions : VersionTable} {version : ModuleVersion}
    {config : ConfigInfo} (found : versions[version]? = some config) (files : Files text) :
    removeListed types dir (versions, files) version =
      (versions.erase version, removeConfigFile types dir files config) := by
  simp only [removeListed, found]

theorem removeListed_foldl (types : ConfigTypes) {dir : Bytes} (set : dir ≠ [])
    (listed : List ModuleVersion) {versions : VersionTable}
    (keyed : ∀ (v : ModuleVersion) (config : ConfigInfo), versions[v]? = some config →
      config.moduleVersion = v) (files : Files text) :
    ∃ gone : List ConfigInfo, (∀ config ∈ gone, versions[config.moduleVersion]? = some config) ∧
      (∀ v : ModuleVersion, (listed.foldl (removeListed types dir) (versions, files)).1[v]? =
        if v ∈ gone.map ConfigInfo.moduleVersion then none else versions[v]?) ∧
      (listed.foldl (removeListed types dir) (versions, files)).2 =
        Filed.removeAll (makeCacheFilePath types dir) gone files := by
  induction listed generalizing versions files with
  | nil => exact ⟨[], by simp, fun v => by simp, rfl⟩
  | cons version listed ih =>
    rw [List.foldl_cons]
    cases found : versions[version]? with
    | none =>
      rw [removeListed_of_none found]
      exact ih keyed files
    | some config =>
      have here : config.moduleVersion = version := keyed version config found
      have keyed' : ∀ (v : ModuleVersion) (c : ConfigInfo), (versions.erase version)[v]? = some c →
          c.moduleVersion = v :=
        fun v c h => keyed v c (Table.lookup_erase_some h).2
      obtain ⟨gone, all, kept, files_eq⟩ :=
        ih keyed' (files.erase (makeCacheFilePath types dir config))
      rw [removeListed_of_some found, removeConfigFile, if_neg set]
      refine ⟨config :: gone, ?_, ?_, files_eq⟩
      · intro c mem
        rcases List.mem_cons.mp mem with rfl | mem
        · rw [here, found]
        · exact (Table.lookup_erase_some (all c mem)).2
      · intro v
        rw [kept v]
        by_cases same : version = v
        · subst v
          have first : version ∈ (config :: gone).map ConfigInfo.moduleVersion := by simp [here]
          rw [if_pos first, Table.lookup_erase_self]
          exact ite_self none
        · have other : v ∈ (config :: gone).map ConfigInfo.moduleVersion ↔
              v ∈ gone.map ConfigInfo.moduleVersion := by
            rw [List.map_cons, List.mem_cons, here]
            exact or_iff_right fun eq => same eq.symm
          simp only [other, Table.lookup_erase_ne versions same]

theorem InStep.keyed (h : InStep codec types p) (found : p.cache.cacheMap[name]? = some versions)
    {v : ModuleVersion} {config : ConfigInfo} (entry : versions[v]? = some config) :
    config.name = name ∧ config.moduleVersion = v := by
  have here : held p.cache.cacheMap (name, v) = some config := by
    rw [held, Nested.find_of_lookup found, entry]
  have key := h.mirrors.keyed _ config here
  exact ⟨congrArg Prod.fst key, congrArg Prod.snd key⟩

theorem InStep.removeConfigVersion (h : InStep codec types p) (name : Bytes)
    (version : ModuleVersion) : InStep codec types (removeConfigVersion types name version p).1 := by
  unfold EA.removeConfigVersion
  split
  next => exact h
  next versions found =>
    split
    next => exact h
    next config entry =>
      have here := (h.keyed found entry).2
      have files : removeConfigFile types p.cache.cacheDir p.files config =
          Filed.removeAll (makeCacheFilePath types p.cache.cacheDir) [config] p.files :=
        if_neg h.dir
      rw [files]
      apply h.remove found
      · intro c mem
        rw [List.mem_singleton.mp mem, here, entry]
      · intro v
        by_cases same : version = v
        · subst v
          have first : version ∈ [config].map ConfigInfo.moduleVersion := by simp [here]
          rw [if_pos first, Table.lookup_erase_self]
        · have other : v ∉ [config].map ConfigInfo.moduleVersion := by
            simpa [here] using fun eq : v = version => same eq.symm
          rw [if_neg other, Table.lookup_erase_ne versions same]

theorem InStep.removeConfigVersions (h : InStep codec types p) (name : Bytes)
    (listed : List ModuleVersion) :
    InStep codec types (removeConfigVersions types name listed p).1 := by
  unfold EA.removeConfigVersions
  split
  next => exact h
  next versions found =>
    have keyed : ∀ (v : ModuleVersion) (config : ConfigInfo), versions[v]? = some config →
        config.moduleVersion = v :=
      fun v config entry => (h.keyed found entry).2
    obtain ⟨gone, all, kept, files⟩ := removeListed_foldl types h.dir listed keyed p.files
    dsimp only
    rw [files]
    exact h.remove found all kept

theorem InStep.removeConfigLessThan (h : InStep codec types p) (name : Bytes)
    (version : ModuleVersion) : InStep codec types (removeConfigLessThan types name version p).1 := by
  unfold EA.removeConfigLessThan
  split
  next => exact h
  next versions found =>
    have mem_below : ∀ config, config ∈ (Table.scan (isLess version) versions).map Prod.snd ↔
        ∃ v : ModuleVersion, versions[v]? = some config ∧ isLess version v = true := by
      intro config
      simp only [List.mem_map, Prod.exists, Table.mem_scan, exists_eq_right]
    dsimp only
    rw [removeConfigFile_foldl h.dir]
    apply h.remove found
    · intro config mem
      obtain ⟨v, entry, _⟩ := (mem_below config).mp mem
      rw [(h.keyed found entry).2, entry]
    · intro v
      rw [Std.ExtTreeMap.getElem?_filter']
      cases entry : versions[v]? with
      | none => simp
      | some config =>
        have here := (h.keyed found entry).2
        by_cases less : isLess version v = true
        · have mem : v ∈ ((Table.scan (isLess version) versions).map Prod.snd).map
              ConfigInfo.moduleVersion :=
            List.mem_map.mpr ⟨config, (mem_below config).mpr ⟨v, entry, less⟩, here⟩
          rw [if_pos mem]
          simp [less]
        · have absent : v ∉ ((Table.scan (isLess version) versions).map Prod.snd).map
              ConfigInfo.moduleVersion := by
            intro mem
            obtain ⟨c, hc, eq⟩ := List.mem_map.mp mem
            obtain ⟨w, entry', less'⟩ := (mem_below c).mp hc
            have same : w = v := by rw [← (h.keyed found entry').2, eq]
            exact less (same ▸ less')
          rw [if_neg absent]
          simp [less]

theorem InStep.removeCachedConfig (h : InStep codec types p) (name : Bytes) :
    InStep codec types (removeCachedConfig types name p).1 := by
  unfold EA.removeCachedConfig
  split
  next => exact h
  next versions found =>
    have mem_vals : ∀ config : ConfigInfo, config ∈ versions.vals ↔
        ∃ v : ModuleVersion, versions[v]? = some config := by
      intro config
      simp only [Table.vals, List.mem_map, Prod.exists, exists_eq_right,
        Std.ExtTreeMap.mem_toList_iff_getElem?_eq_some]
    dsimp only
    rw [removeConfigFile_foldl h.dir]
    have erased : p.cache.cacheMap.erase name = Nested.keep p.cache.cacheMap name ∅ := by
      simp [Nested.keep]
    rw [erased]
    apply h.remove found
    · intro config mem
      obtain ⟨v, entry⟩ := (mem_vals config).mp mem
      rw [(h.keyed found entry).2, entry]
    · intro v
      rw [Std.ExtTreeMap.getElem?_empty]
      cases entry : versions[v]? with
      | none => simp
      | some config =>
        have mem : v ∈ versions.vals.map ConfigInfo.moduleVersion :=
          List.mem_map.mpr ⟨config, (mem_vals config).mpr ⟨v, entry⟩, (h.keyed found entry).2⟩
        rw [if_pos mem]

theorem InStep.step (h : InStep codec types p) {e : CacheEvent}
    (named : ∀ config, e = .addConfig config → 47 ∉ config.name)
    (apart : ∀ config, e = .addConfig config → held p.cache.cacheMap config.cacheKey = none →
      ∀ i other, held p.cache.cacheMap i = some other → ¬ SameFile types other config) :
    InStep codec types (cacheStep codec types p e).1 := by
  cases e with
  | addConfig config =>
    cases free : held p.cache.cacheMap config.cacheKey with
    | none => exact h.add (named config rfl) free (apart config rfl free)
    | some other =>
      have present :
          (Nested.find p.cache.cacheMap config.name config.moduleVersion).isSome = true := by
        rw [show Nested.find p.cache.cacheMap config.name config.moduleVersion = some other from free]
        rfl
      have refused : (cacheStep codec types p (.addConfig config)).1 = p := by
        simp only [cacheStep, addConfig, present, if_true]
      rw [refused]
      exact h
  | removeVersion name version => exact h.removeConfigVersion name version
  | removeVersions name versions => exact h.removeConfigVersions name versions
  | removeLessThan name version => exact h.removeConfigLessThan name version
  | removeAll name => exact h.removeCachedConfig name

theorem mem_listDir {dir : Bytes} {files : Files text} {c : text} :
    c ∈ listDir dir files ↔ ∃ path, inDirectory dir path = true ∧ files[path]? = some c := by
  simp only [listDir, List.mem_map, Prod.exists, Table.mem_scan, exists_eq_right]
  simp only [and_comm]

theorem loadFiles_dumped (configs : List ConfigInfo) (m : ConfigTable) :
    loadFiles codec m (configs.map codec.dumpProto) = (configs.foldl doAddConfig m, .ok ()) := by
  induction configs generalizing m with
  | nil => rfl
  | cons config configs ih =>
    rw [List.map_cons, loadFiles, codec.load_dump, List.foldl_cons]
    exact ih _

theorem noEmpty_foldl_doAddConfig (configs : List ConfigInfo) {m : ConfigTable}
    (h : Nested.NoEmpty m) : Nested.NoEmpty (configs.foldl doAddConfig m) := by
  induction configs generalizing m with
  | nil => exact h
  | cons config configs ih => exact ih h.put

/-- A new process that reads the directory, in whatever order, has the cached map. -/
def Rebuilds (codec : JsonCodec text) (p : CacheProcess text) : Prop :=
  ∀ listing, listing.Perm (listDir p.cache.cacheDir p.files) →
    ConfigCache.init codec p.cache.cacheDir (some listing) {} =
      (⟨p.cache.cacheMap, p.cache.cacheDir, true⟩, .ok ())

theorem InStep.rebuilds (h : InStep codec types p) : Rebuilds codec p := by
  intro listing perm
  have exactly : ∀ c, c ∈ listing ↔
      ∃ path, inDirectory p.cache.cacheDir path = true ∧ p.files[path]? = some c :=
    fun c => perm.mem_iff.trans mem_listDir
  obtain ⟨configs, dumped, all⟩ := h.mirrors.records codec.dump_injective exactly
  have empty_held : ∀ i, held (∅ : ConfigTable) i = none := by
    intro i
    simp [held, Nested.find]
  have rebuilt : configs.foldl doAddConfig ∅ = p.cache.cacheMap := by
    apply Nested.ext (noEmpty_foldl_doAddConfig configs Nested.noEmpty_empty) h.noEmpty
    intro name version
    exact h.mirrors.rebuilt held doAddConfig (fun m config i ne => held_doAddConfig_ne m ne)
      held_doAddConfig_self empty_held all (name, version)
  have loaded : loadFiles codec ∅ listing = (p.cache.cacheMap, .ok ()) := by
    rw [← dumped, loadFiles_dumped, rebuilt]
  simp only [ConfigCache.init, if_neg h.dir, loaded]
  rfl

theorem InStep.held_eq (h : InStep codec types p) {i : Bytes × ModuleVersion} {other : ConfigInfo}
    (found : held p.cache.cacheMap i = some other) :
    ∃ versions : VersionTable, p.cache.cacheMap[other.name]? = some versions ∧
      versions[other.moduleVersion]? = some other := by
  have key := h.mirrors.keyed i other found
  rw [← key] at found
  exact Nested.find_eq_some.mp found

/-- The files cannot tell a config written over another one from the cache
without the other one. -/
theorem InStep.overwrite (h : InStep codec types p) {config : ConfigInfo}
    (named : 47 ∉ config.name) (free : held p.cache.cacheMap config.cacheKey = none)
    {i : Bytes × ModuleVersion} {other : ConfigInfo}
    (found : held p.cache.cacheMap i = some other) (same : SameFile types other config) :
    ¬ Rebuilds codec (addConfig codec types config p).1 := by
  obtain ⟨versions, table, entry⟩ := h.held_eq found
  have key := h.mirrors.keyed i other found
  have samePath : makeCacheFilePath types p.cache.cacheDir other =
      makeCacheFilePath types p.cache.cacheDir config := makeCacheFilePath_eq_iff.mpr same
  have distinct : other.cacheKey ≠ config.cacheKey := by
    intro eq
    rw [← eq, key, found] at free
    simp at free
  have without : (EA.removeConfigVersion types other.name other.moduleVersion p).1 =
      { cache := { p.cache with
          cacheMap := Nested.keep p.cache.cacheMap other.name (versions.erase other.moduleVersion) },
        files := p.files.erase (makeCacheFilePath types p.cache.cacheDir config) } := by
    simp only [EA.removeConfigVersion, table, entry, removeConfigFile, if_neg h.dir, samePath]
  have step := h.removeConfigVersion other.name other.moduleVersion
  rw [without] at step
  have dropped : held (Nested.keep p.cache.cacheMap other.name
      (versions.erase other.moduleVersion)) other.cacheKey = none := Nested.find_remove_self
  have stays : ∀ j, other.cacheKey ≠ j → held (Nested.keep p.cache.cacheMap other.name
      (versions.erase other.moduleVersion)) j = held p.cache.cacheMap j :=
    fun j ne => Nested.find_remove_ne table ne
  have apart : ∀ j c, held (Nested.keep p.cache.cacheMap other.name
      (versions.erase other.moduleVersion)) j = some c → ¬ SameFile types c config := by
    intro j c hc again
    have ne : other.cacheKey ≠ j := by
      rintro rfl
      simp [dropped] at hc
    rw [stays j ne] at hc
    have path : makeCacheFilePath types p.cache.cacheDir c =
        makeCacheFilePath types p.cache.cacheDir other :=
      (makeCacheFilePath_eq_iff.mpr again).trans samePath.symm
    have eq : c = other := h.mirrors.path_inj codec.dump_injective hc found path
    subst c
    exact ne (h.mirrors.keyed j other hc)
  have free' := (stays _ distinct).trans free
  have rebuilt := (step.add named free' apart).rebuilds
  rw [addConfig_of_free free'] at rebuilt
  rw [addConfig_of_free free]
  intro claimed
  have files : writeConfigFile codec types p.cache.cacheDir config
      (p.files.erase (makeCacheFilePath types p.cache.cacheDir config)) =
      writeConfigFile codec types p.cache.cacheDir config p.files := by
    simp only [writeConfigFile, if_neg h.dir, Table.erase_insert]
  have fromFiles := rebuilt _ (List.Perm.refl _)
  dsimp only at fromFiles
  rw [files, claimed _ (List.Perm.refl _)] at fromFiles
  have maps := congrArg (fun r => held r.1.cacheMap other.cacheKey) fromFiles
  dsimp only at maps
  rw [held_doAddConfig_ne _ distinct.symm, held_doAddConfig_ne _ distinct.symm, dropped, key,
    found] at maps
  simp at maps

/-- No config is added while a cached version of the same name has the same file. -/
def Apart (types : ConfigTypes) (p : CacheProcess text) : CacheEvent → Prop
  | .addConfig config =>
    held p.cache.cacheMap config.cacheKey = none → ∀ version other,
      Nested.find p.cache.cacheMap config.name version = some other →
      version.minor = config.moduleVersion.minor → version.patch = config.moduleVersion.patch →
      configTypeToString types other.type ≠ configTypeToString types config.type
  | _ => True

theorem InStep.apart_iff (h : InStep codec types p) {config : ConfigInfo} :
    Apart types p (.addConfig config) ↔ (held p.cache.cacheMap config.cacheKey = none →
      ∀ i other, held p.cache.cacheMap i = some other → ¬ SameFile types other config) := by
  constructor
  · intro apart free ⟨name, version⟩ other found ⟨sameName, minor, patch, type⟩
    have key := h.mirrors.keyed _ other found
    have name_eq : other.name = name := congrArg Prod.fst key
    have version_eq : other.moduleVersion = version := congrArg Prod.snd key
    rw [version_eq] at minor patch
    have here : Nested.find p.cache.cacheMap config.name version = some other := by
      rw [← sameName, name_eq]
      exact found
    exact apart free version other here minor patch type
  · intro apart free version other found minor patch type
    have key := h.mirrors.keyed (config.name, version) other found
    have version_eq : other.moduleVersion = version := congrArg Prod.snd key
    refine apart free (config.name, version) other found ⟨congrArg Prod.fst key, ?_, ?_, type⟩
    · rw [version_eq, minor]
    · rw [version_eq, patch]

theorem InStep.next (h : InStep codec types p) {e : CacheEvent}
    (named : ∀ config, e = .addConfig config → 47 ∉ config.name) (apart : Apart types p e) :
    InStep codec types (cacheStep codec types p e).1 := by
  apply h.step named
  rintro config rfl
  exact h.apart_iff.mp apart

theorem InStep.apart_of_rebuilds (h : InStep codec types p) {e : CacheEvent}
    (named : ∀ config, e = .addConfig config → 47 ∉ config.name)
    (rebuilds : Rebuilds codec (cacheStep codec types p e).1) : Apart types p e := by
  cases e with
  | addConfig config =>
    apply h.apart_iff.mpr
    intro free i other found same
    exact h.overwrite (named config rfl) free found same rebuilds
  | removeVersion name version => trivial
  | removeVersions name versions => trivial
  | removeLessThan name version => trivial
  | removeAll name => trivial

/-- A process whose `init` found no config in its cache directory. -/
structure Opened (p : CacheProcess text) : Prop where
  dir : p.cache.cacheDir ≠ []
  cacheMap : p.cache.cacheMap = ∅
  files : ∀ path, inDirectory p.cache.cacheDir path = true → p.files[path]? = none

theorem Opened.inStep (h : Opened p) : InStep codec types p := by
  have nothing : ∀ i, held p.cache.cacheMap i = none := by
    intro i
    simp [h.cacheMap, held, Nested.find]
  refine ⟨h.dir, ?_, (Filed.Mirrors.empty h.files).congr nothing⟩
  rw [h.cacheMap]
  exact Nested.noEmpty_empty

/-- The directory stands for the cached map throughout a run exactly when no two
versions that the run has in the cache at once share a file. -/
theorem cache_directory_rebuilds_iff (codec : JsonCodec text) (types : ConfigTypes)
    {p : CacheProcess text} (opened : Opened p) {events : List CacheEvent}
    (named : ∀ config, .addConfig config ∈ events → 47 ∉ config.name) :
    Run.Always (cacheStep codec types) (Rebuilds codec) p events ↔
      Run.Throughout (cacheStep codec types) (Apart types) p events := by
  have slashless : ∀ e ∈ events, ∀ config, e = .addConfig config → 47 ∉ config.name := by
    rintro e mem config rfl
    exact named config mem
  apply Run.always_iff_throughout (I := InStep codec types) _ _ _ slashless opened.inStep
  · exact fun _ h => h.rebuilds
  · exact fun _ _ fits h apart => h.next fits apart
  · exact fun _ _ fits h rebuilds => h.apart_of_rebuilds fits rebuilds

end Mirror

section Example

theorem emptyCache_opened : Opened emptyCache :=
  ⟨by decide, rfl, fun path _ => Std.ExtTreeMap.getElem?_empty⟩

/-- `Apart` looks at the cached versions of the name. -/
def apartEntries (types : ConfigTypes) (m : ConfigTable) (config : ConfigInfo) : Prop :=
  (held m config.cacheKey).isNone → ∀ e ∈ (m.getD config.name default).toList,
    e.1.minor = config.moduleVersion.minor → e.1.patch = config.moduleVersion.patch →
      configTypeToString types e.2.type ≠ configTypeToString types config.type

theorem apartEntries_iff {types : ConfigTypes} {p : CacheProcess ConfigInfo} {config : ConfigInfo} :
    apartEntries types p.cache.cacheMap config ↔ Apart types p (.addConfig config) := by
  unfold apartEntries
  rw [Option.isNone_iff_eq_none]
  refine forall_congr' fun free => ⟨fun apart version other found => ?_, fun apart e mem => ?_⟩
  · rw [← Nested.find_getD] at found
    exact apart (version, other) (Std.ExtTreeMap.mem_toList_iff_getElem?_eq_some.mpr found)
  · have found := Std.ExtTreeMap.mem_toList_iff_getElem?_eq_some.mp mem
    rw [Nested.find_getD] at found
    exact apart e.1 e.2 found

instance (types : ConfigTypes) (m : ConfigTable) (config : ConfigInfo) :
    Decidable (apartEntries types m config) := inferInstanceAs (Decidable (_ → _))

instance (types : ConfigTypes) (p : CacheProcess ConfigInfo) :
    (e : CacheEvent) → Decidable (Apart types p e)
  | .addConfig _ => decidable_of_iff _ apartEntries_iff
  | .removeVersion .. => isTrue trivial
  | .removeVersions .. => isTrue trivial
  | .removeLessThan .. => isTrue trivial
  | .removeAll _ => isTrue trivial

/-- Versions 1.2.3 and 1.4.0 are cached, the first one is removed, and 2.2.3, which has its
file, comes in its place. -/
def replacedEvents : List CacheEvent :=
  [.addConfig (versioned 1), .addConfig { versioned 1 with version := some ⟨1, 4, 0⟩ },
    .removeVersion [97] ⟨1, 2, 3⟩, .addConfig (versioned 2)]

theorem cache_directory_rebuilds_replaced :
    Run.Always (cacheStep plainCodec someTypes) (Rebuilds plainCodec) emptyCache replacedEvents ∧
      (Run.all (cacheStep plainCodec someTypes) emptyCache replacedEvents).1.files.keys.length =
        2 := by
  have named : ∀ config, CacheEvent.addConfig config ∈ replacedEvents → 47 ∉ config.name := by
    intro config mem
    simp only [replacedEvents, List.mem_cons, CacheEvent.addConfig.injEq, reduceCtorEq,
      List.not_mem_nil, or_false, false_or] at mem
    rcases mem with rfl | rfl | rfl <;> decide
  refine ⟨?_, by decide⟩
  apply (cache_directory_rebuilds_iff plainCodec someTypes emptyCache_opened named).mpr
  rw [replacedEvents, Run.throughout_cons, Run.throughout_cons, Run.throughout_cons,
    Run.throughout_cons]
  exact ⟨by decide, by decide, by decide, by decide, Run.throughout_nil⟩

/-- Versions 1.2.3 and 2.2.3 share their file: the second one overwrites the first. -/
theorem cache_directory_loses_a_version :
    ¬ ∀ (text : Type) (codec : JsonCodec text) (types : ConfigTypes) (p : CacheProcess text)
      (events : List CacheEvent), Opened p →
      (∀ config, .addConfig config ∈ events → 47 ∉ config.name) →
      Rebuilds codec (Run.all (cacheStep codec types) p events).1 := by
  intro always
  have named : ∀ config,
      .addConfig config ∈ [CacheEvent.addConfig (versioned 1), .addConfig (versioned 2)] →
      47 ∉ config.name := by
    intro config mem
    simp only [List.mem_cons, CacheEvent.addConfig.injEq, List.not_mem_nil, or_false] at mem
    rcases mem with rfl | rfl <;> decide
  have rebuilt := always ConfigInfo plainCodec someTypes emptyCache _ emptyCache_opened named _
    (List.Perm.refl _)
  have first := congrArg (fun r => (Nested.find r.1.cacheMap [97] ⟨1, 2, 3⟩).isSome) rebuilt
  revert first
  decide

end Example

end EA
