import EA.CacheDirectory

namespace EA

variable {text : Type} {codec : JsonCodec text} {types : ConfigTypes} {p : CacheProcess text}

/-- `ConfigCache::get_config` for one version. It searches the name that the output
message happens to hold, not the one it is given. -/
def ConfigCache.getConfigVersion (c : ConfigCache) (_name : Bytes) (version : ModuleVersion)
    (config : ConfigInfo) : Except Status Unit × ConfigInfo :=
  match c.cacheMap[config.name]? with
  | none => (.error ⟨.notFound, []⟩, config)
  | some versions =>
    match versions[version]? with
    | none => (.error ⟨.notFound, []⟩, config)
    | some found => (.ok (), found)

/-- `ConfigCache::get_config` for the latest version, with the same search. -/
def ConfigCache.getConfigLatest (c : ConfigCache) (_name : Bytes) (config : ConfigInfo) :
    Except Status Unit × ConfigInfo :=
  match c.cacheMap[config.name]? with
  | none => (.error ⟨.notFound, []⟩, config)
  | some versions =>
    match versions.toList.getLast? with
    | none => (.error ⟨.notFound, []⟩, config)
    | some newest => (.ok (), newest.2)

/-- An event that removes a config, whether or not it is there. -/
def CacheEvent.Removes : CacheEvent → Bytes × ModuleVersion → Prop
  | .addConfig _, _ => False
  | .removeVersion name version, i => i = (name, version)
  | .removeVersions name versions, i => i.1 = name ∧ i.2 ∈ versions
  | .removeLessThan name version, i => i.1 = name ∧ compare i.2 version = .lt
  | .removeAll name, i => i.1 = name

instance (e : CacheEvent) (i : Bytes × ModuleVersion) : Decidable (e.Removes i) := by
  cases e <;> unfold CacheEvent.Removes <;> infer_instance

/-- What an event makes of the config that is cached under a name and version. -/
def cachedAfter (i : Bytes × ModuleVersion) (cached : Option ConfigInfo) (e : CacheEvent) :
    Option ConfigInfo :=
  if e.Removes i then none
  else
    match e with
    | .addConfig config => if config.cacheKey = i then cached <|> some config else cached
    | _ => cached

/-- The config that a history has left under a name and version: the one added last and
not removed since. An addition where there is one already is refused. -/
def cachedIn (start : Option ConfigInfo) (events : List CacheEvent) (i : Bytes × ModuleVersion) :
    Option ConfigInfo :=
  events.foldl (cachedAfter i) start

theorem cachedAfter_of_removes {i : Bytes × ModuleVersion} {e : CacheEvent} (h : e.Removes i)
    (cached : Option ConfigInfo) : cachedAfter i cached e = none := if_pos h

theorem cachedAfter_some {i : Bytes × ModuleVersion} {e : CacheEvent} {config : ConfigInfo}
    (h : ¬ e.Removes i) : cachedAfter i (some config) e = some config := by
  unfold cachedAfter
  rw [if_neg h]
  cases e with
  | addConfig other => exact ite_self (some config)
  | _ => rfl

theorem cachedAfter_none {i : Bytes × ModuleVersion} {e : CacheEvent} {config : ConfigInfo}
    (h : cachedAfter i none e = some config) : e = .addConfig config ∧ config.cacheKey = i := by
  unfold cachedAfter at h
  split at h
  next => simp at h
  next =>
    cases e with
    | addConfig other =>
      dsimp only at h
      split at h
      next key =>
        cases Option.some.inj h
        exact ⟨rfl, key⟩
      next => simp at h
    | _ => simp at h

section Removals

variable {m : ConfigTable} {name : Bytes} (removes : ModuleVersion → Prop)
  [DecidablePred removes] (i : Bytes × ModuleVersion)

/-- An unknown name has nothing to remove. -/
theorem held_unknown (unknown : m[name]? = none) :
    held m i = if i.1 = name ∧ removes i.2 then none else held m i := by
  by_cases same : i.1 = name
  · have absent : held m i = none := by
      rw [held, Nested.find, same, unknown]
      rfl
    rw [absent]
    exact (ite_self none).symm
  · rw [if_neg fun h => same h.1]

/-- A removal takes versions out of one name's map. -/
theorem held_keep {versions rest : VersionTable} (found : m[name]? = some versions)
    (exact : ∀ v : ModuleVersion, rest[v]? = if removes v then none else versions[v]?) :
    held (Nested.keep m name rest) i = if i.1 = name ∧ removes i.2 then none else held m i := by
  obtain ⟨n, v⟩ := i
  by_cases same : n = name
  · subst n
    rw [held, held, Nested.find_keep_self, Nested.find_of_lookup found, exact]
    simp
  · rw [if_neg fun h => same h.1]
    exact Nested.find_keep_ne fun eq => same eq.symm

end Removals

theorem lookup_removeListed (dir : Bytes) (listed : List ModuleVersion) (versions : VersionTable)
    (files : Files text) (v : ModuleVersion) :
    (listed.foldl (removeListed types dir) (versions, files)).1[v]? =
      if v ∈ listed then none else versions[v]? := by
  induction listed generalizing versions files with
  | nil => simp
  | cons version listed ih =>
    rw [List.foldl_cons]
    cases found : versions[version]? with
    | none =>
      rw [removeListed_of_none found, ih]
      by_cases same : v = version
      · subst v
        rw [found]
        simp
      · simp [same]
    | some config =>
      rw [removeListed_of_some found, ih]
      by_cases same : v = version
      · subst v
        simp
      · rw [Table.lookup_erase_ne versions fun eq => same eq.symm]
        simp [same]

theorem held_removeConfigVersion (name : Bytes) (version : ModuleVersion)
    (i : Bytes × ModuleVersion) :
    held (removeConfigVersion types name version p).1.cache.cacheMap i =
      if i.1 = name ∧ i.2 = version then none else held p.cache.cacheMap i := by
  unfold removeConfigVersion
  split
  next unknown => exact held_unknown (· = version) i unknown
  next versions found =>
    split
    next absent =>
      dsimp only
      split
      next same =>
        rw [held, same.1, same.2, Nested.find_of_lookup found]
        exact absent
      next => rfl
    next config entry =>
      refine held_keep (· = version) i found fun v => ?_
      by_cases same : v = version
      · subst v
        rw [Table.lookup_erase_self, if_pos rfl]
      · rw [Table.lookup_erase_ne versions fun eq => same eq.symm, if_neg same]

theorem held_removeConfigVersions (name : Bytes) (listed : List ModuleVersion)
    (i : Bytes × ModuleVersion) :
    held (removeConfigVersions types name listed p).1.cache.cacheMap i =
      if i.1 = name ∧ i.2 ∈ listed then none else held p.cache.cacheMap i := by
  unfold removeConfigVersions
  split
  next unknown => exact held_unknown (· ∈ listed) i unknown
  next versions found =>
    exact held_keep (· ∈ listed) i found fun v => lookup_removeListed _ listed versions p.files v

theorem held_removeConfigLessThan (name : Bytes) (version : ModuleVersion)
    (i : Bytes × ModuleVersion) :
    held (removeConfigLessThan types name version p).1.cache.cacheMap i =
      if i.1 = name ∧ compare i.2 version = .lt then none else held p.cache.cacheMap i := by
  unfold removeConfigLessThan
  split
  next unknown => exact held_unknown (fun v => compare v version = .lt) i unknown
  next versions found =>
    refine held_keep (fun v => compare v version = .lt) i found fun v => ?_
    rw [Std.ExtTreeMap.getElem?_filter']
    by_cases less : compare v version = .lt
    · cases versions[v]? <;> simp [isLess, less]
    · cases versions[v]? <;> simp [isLess, less]

theorem held_removeCachedConfig (name : Bytes) (i : Bytes × ModuleVersion) :
    held (removeCachedConfig types name p).1.cache.cacheMap i =
      if i.1 = name then none else held p.cache.cacheMap i := by
  unfold removeCachedConfig
  split
  next unknown =>
    have nothing := held_unknown (fun _ => True) i unknown
    simpa using nothing
  next versions found =>
    obtain ⟨n, v⟩ := i
    by_cases same : n = name
    · subst n
      rw [if_pos rfl]
      exact Nested.find_erase_self
    · rw [if_neg same]
      exact Nested.find_erase_ne fun eq => same eq.symm

theorem held_addConfig (config : ConfigInfo) (i : Bytes × ModuleVersion) :
    held (addConfig codec types config p).1.cache.cacheMap i =
      if config.cacheKey = i then held p.cache.cacheMap i <|> some config
      else held p.cache.cacheMap i := by
  cases present : held p.cache.cacheMap config.cacheKey with
  | some other =>
    have there : (Nested.find p.cache.cacheMap config.name config.moduleVersion).isSome = true := by
      have entry : Nested.find p.cache.cacheMap config.name config.moduleVersion = some other :=
        present
      rw [entry]
      rfl
    rw [addConfig, if_pos there]
    split
    next key =>
      rw [← key, present]
      rfl
    next => rfl
  | none =>
    rw [addConfig_of_free present]
    split
    next key =>
      rw [← key, present]
      exact held_doAddConfig_self _ _
    next ne => exact held_doAddConfig_ne _ ne

/-- The cache map follows the history, entry by entry. -/
theorem held_cacheStep (p : CacheProcess text) (e : CacheEvent) (i : Bytes × ModuleVersion) :
    held (cacheStep codec types p e).1.cache.cacheMap i =
      cachedAfter i (held p.cache.cacheMap i) e := by
  cases e with
  | addConfig config => exact held_addConfig config i
  | removeVersion name version =>
    refine (held_removeConfigVersion name version i).trans (if_congr ?_ rfl rfl)
    constructor
    · rintro ⟨rfl, rfl⟩
      rfl
    · rintro rfl
      exact ⟨rfl, rfl⟩
  | removeVersions name versions => exact held_removeConfigVersions name versions i
  | removeLessThan name version => exact held_removeConfigLessThan name version i
  | removeAll name => exact held_removeCachedConfig name i

theorem held_run (p : CacheProcess text) (events : List CacheEvent) (i : Bytes × ModuleVersion) :
    held (Run.all (cacheStep codec types) p events).1.cache.cacheMap i =
      cachedIn (held p.cache.cacheMap i) events i := by
  induction events generalizing p with
  | nil => rfl
  | cons e events ih =>
    rw [Run.all_cons, ih, held_cacheStep, cachedIn, cachedIn, List.foldl_cons]

/-- Every cached config lies under its own name and version, and no name without one. -/
structure Shelved (m : ConfigTable) : Prop where
  keyed : ∀ i config, held m i = some config → config.cacheKey = i
  noEmpty : Nested.NoEmpty m

theorem shelved_empty : Shelved ∅ := by
  refine ⟨fun i config found => ?_, Nested.noEmpty_empty⟩
  simp [held, Nested.find] at found

theorem Shelved.put {m : ConfigTable} (h : Shelved m) (config : ConfigInfo) :
    Shelved (doAddConfig m config) := by
  refine ⟨fun i other found => ?_, h.noEmpty.put⟩
  by_cases key : config.cacheKey = i
  · rw [← key, held_doAddConfig_self] at found
    rw [← Option.some.inj found, key]
  · rw [held_doAddConfig_ne m key] at found
    exact h.keyed i other found

theorem Shelved.loadFiles {m : ConfigTable} (h : Shelved m) (files : List text) :
    Shelved (loadFiles codec m files).1 := by
  induction files generalizing m with
  | nil => exact h
  | cons file files ih =>
    unfold EA.loadFiles
    split
    next => exact h
    next config _ => exact ih (h.put config)

theorem shelved_init (codec : JsonCodec text) (flagsCacheDir : Bytes)
    (listing : Option (List text)) :
    Shelved (ConfigCache.init codec flagsCacheDir listing {}).1.cacheMap := by
  have loaded : ∀ files, Shelved (loadFiles codec ({} : ConfigCache).cacheMap files).1 :=
    fun files => shelved_empty.loadFiles files
  unfold ConfigCache.init
  rw [if_neg (by decide)]
  split
  next => exact shelved_empty
  next =>
    split
    next => exact shelved_empty
    next files =>
      have shelved := loaded files
      split
      next m _ result =>
        rw [result] at shelved
        exact shelved
      next m result =>
        rw [result] at shelved
        exact shelved

theorem noEmpty_cacheStep (h : Nested.NoEmpty p.cache.cacheMap) (e : CacheEvent) :
    Nested.NoEmpty (cacheStep codec types p e).1.cache.cacheMap := by
  cases e with
  | addConfig config =>
    dsimp only [cacheStep, addConfig]
    split
    next => exact h
    next => exact h.put
  | removeVersion name version =>
    dsimp only [cacheStep, removeConfigVersion]
    split
    next => exact h
    next =>
      split
      next => exact h
      next => exact h.keep
  | removeVersions name versions =>
    dsimp only [cacheStep, removeConfigVersions]
    split
    next => exact h
    next => exact h.keep
  | removeLessThan name version =>
    dsimp only [cacheStep, removeConfigLessThan]
    split
    next => exact h
    next => exact h.keep
  | removeAll name =>
    dsimp only [cacheStep, removeCachedConfig]
    split
    next => exact h
    next => exact h.erase

theorem Shelved.step (h : Shelved p.cache.cacheMap) (e : CacheEvent) :
    Shelved (cacheStep codec types p e).1.cache.cacheMap := by
  refine ⟨fun i config found => ?_, noEmpty_cacheStep h.noEmpty e⟩
  rw [held_cacheStep] at found
  cases before : held p.cache.cacheMap i with
  | none =>
    rw [before] at found
    exact (cachedAfter_none found).2
  | some other =>
    rw [before] at found
    by_cases removes : e.Removes i
    · rw [cachedAfter_of_removes removes] at found
      simp at found
    · rw [cachedAfter_some removes] at found
      rw [← Option.some.inj found]
      exact h.keyed i other before

theorem Shelved.run (h : Shelved p.cache.cacheMap) (events : List CacheEvent) :
    Shelved (Run.all (cacheStep codec types) p events).1.cache.cacheMap := by
  induction events generalizing p with
  | nil => exact h
  | cons e events ih => exact ih (h.step e)

/-- A lookup gives the wanted config where there is one, and NotFound where there is none. -/
structure Answers (wanted : ConfigInfo → Prop) (answer : Except Status Unit × ConfigInfo) :
    Prop where
  found : ∀ config, answer = (.ok (), config) ↔ wanted config
  notFound : (∀ config, ¬ wanted config) → answer.1 = .error ⟨.notFound, []⟩

/-- The greatest cached version of a name. -/
def Newest (cached : Bytes × ModuleVersion → Option ConfigInfo) (name : Bytes)
    (config : ConfigInfo) : Prop :=
  ∃ v, cached (name, v) = some config ∧
    ∀ w other, cached (name, w) = some other → w = v ∨ compare w v = .lt

section Lookups

variable {c : ConfigCache} {name : Bytes} {version : ModuleVersion} {out config : ConfigInfo}

theorem getConfigVersion_eq : c.getConfigVersion name version out =
    match held c.cacheMap (out.name, version) with
    | none => (.error ⟨.notFound, []⟩, out)
    | some found => (.ok (), found) := by
  unfold ConfigCache.getConfigVersion
  cases known : c.cacheMap[out.name]? with
  | none =>
    have absent : held c.cacheMap (out.name, version) = none := by
      rw [held, Nested.find, known]
      rfl
    rw [absent]
  | some versions => rw [held, Nested.find_of_lookup known]

/-- The version lookup answers for the name in the output message. -/
theorem getConfigVersion_answers :
    Answers (fun config => held c.cacheMap (out.name, version) = some config)
      (c.getConfigVersion name version out) := by
  rw [getConfigVersion_eq]
  cases held c.cacheMap (out.name, version) with
  | none => exact ⟨by simp, fun _ => rfl⟩
  | some found => exact ⟨by simp, fun none => absurd rfl (none found)⟩

theorem Answers.iff_same {wanted wanted' : ConfigInfo → Prop}
    {answer : Except Status Unit × ConfigInfo} (h : Answers wanted answer) :
    Answers wanted' answer ↔ ∀ config, wanted config ↔ wanted' config := by
  constructor
  · exact fun h' config => (h.found config).symm.trans (h'.found config)
  · intro same
    refine ⟨fun config => (h.found config).trans (same config), fun none => ?_⟩
    exact h.notFound fun config wants => none config ((same config).mp wants)

theorem Newest.unique {cached : Bytes × ModuleVersion → Option ConfigInfo} {other : ConfigInfo}
    (h : Newest cached name config) (h' : Newest cached name other) : config = other := by
  obtain ⟨v, found, greatest⟩ := h
  obtain ⟨w, found', greatest'⟩ := h'
  have same : v = w := by
    rcases greatest w other found' with eq | less
    · exact eq.symm
    rcases greatest' v config found with eq | less'
    · exact eq
    · have back := Std.OrientedCmp.lt_of_gt (Std.OrientedCmp.gt_of_lt less')
      exact absurd less (Std.OrientedCmp.not_lt_of_lt back)
  subst w
  rw [found] at found'
  exact Option.some.inj found'

theorem Shelved.getConfigLatest_cases (h : Shelved c.cacheMap) (name : Bytes)
    (out : ConfigInfo) :
    (∃ config, Newest (held c.cacheMap) out.name config ∧
        c.getConfigLatest name out = (.ok (), config)) ∨
      (∀ v, held c.cacheMap (out.name, v) = none) ∧
        c.getConfigLatest name out = (.error ⟨.notFound, []⟩, out) := by
  unfold ConfigCache.getConfigLatest
  cases known : c.cacheMap[out.name]? with
  | none =>
    refine Or.inr ⟨fun v => ?_, rfl⟩
    rw [held, Nested.find, known]
    rfl
  | some versions =>
    have lookup : ∀ v, held c.cacheMap (out.name, v) = versions[v]? := fun v =>
      Nested.find_of_lookup known
    cases last : versions.toList.getLast? with
    | none =>
      obtain ⟨v, config, entry⟩ := h.noEmpty _ _ known
      have mem := Std.ExtTreeMap.mem_toList_iff_getElem?_eq_some.mpr entry
      rw [List.getLast?_eq_none_iff.mp last] at mem
      simp at mem
    | some newest =>
      obtain ⟨found, greatest⟩ := Table.getLast?_toList last
      refine Or.inl ⟨newest.2, ⟨newest.1, ?_, fun w other entry => ?_⟩, ?_⟩
      · rw [lookup, found]
      · rw [lookup] at entry
        exact greatest w other entry
      · simp only [last]

/-- So does the lookup of the latest version. -/
theorem Shelved.getConfigLatest_answers (h : Shelved c.cacheMap) :
    Answers (Newest (held c.cacheMap) out.name) (c.getConfigLatest name out) := by
  rcases h.getConfigLatest_cases name out with
    ⟨newest, is_newest, answer⟩ | ⟨absent, answer⟩
  · rw [answer]
    refine ⟨fun config => ⟨fun eq => ?_, fun other => ?_⟩, fun none => absurd is_newest (none _)⟩
    · cases eq
      exact is_newest
    · rw [is_newest.unique other]
  · rw [answer]
    refine ⟨fun config => ⟨fun eq => by simp at eq, ?_⟩, fun _ => rfl⟩
    rintro ⟨v, found, _⟩
    rw [absent v] at found
    simp at found

/-- What is cached under two names differs, unless there is nothing. -/
theorem Shelved.same_version_iff (h : Shelved c.cacheMap) {n n' : Bytes} :
    (∀ config, held c.cacheMap (n, version) = some config ↔
        held c.cacheMap (n', version) = some config) ↔
      n = n' ∨ held c.cacheMap (n', version) = none ∧ held c.cacheMap (n, version) = none := by
  constructor
  · intro same
    by_cases eq : n = n'
    · exact Or.inl eq
    have never : ∀ config, held c.cacheMap (n, version) ≠ some config := by
      intro config found
      have key := h.keyed _ _ found
      have key' := h.keyed _ _ ((same config).mp found)
      exact eq (congrArg Prod.fst (key.symm.trans key'))
    have absent := Option.eq_none_iff_forall_ne_some.mpr never
    refine Or.inr ⟨Option.eq_none_iff_forall_ne_some.mpr fun config found => ?_, absent⟩
    exact never config ((same config).mpr found)
  · rintro (rfl | ⟨absent', absent⟩) config
    · exact Iff.rfl
    · rw [absent, absent']

theorem Newest.held_some {cached : Bytes × ModuleVersion → Option ConfigInfo}
    (h : Newest cached name config) : ∃ v, cached (name, v) = some config :=
  h.imp fun _ found => found.1

theorem Shelved.exists_newest (h : Shelved c.cacheMap) {v : ModuleVersion}
    (found : held c.cacheMap (name, v) = some config) :
    ∃ newest, Newest (held c.cacheMap) name newest := by
  rcases h.getConfigLatest_cases name { config with name } with
    ⟨newest, is_newest, _⟩ | ⟨absent, _⟩
  · exact ⟨newest, is_newest⟩
  · rw [absent v] at found
    simp at found

theorem Shelved.same_newest_iff (h : Shelved c.cacheMap) {n n' : Bytes} :
    (∀ config, Newest (held c.cacheMap) n config ↔ Newest (held c.cacheMap) n' config) ↔
      n = n' ∨ ∀ v, held c.cacheMap (n', v) = none ∧ held c.cacheMap (n, v) = none := by
  constructor
  · intro same
    by_cases eq : n = n'
    · exact Or.inl eq
    have never : ∀ config, ¬ Newest (held c.cacheMap) n config := by
      intro config newest
      obtain ⟨v, found⟩ := newest.held_some
      obtain ⟨v', found'⟩ := ((same config).mp newest).held_some
      have key := (h.keyed _ _ found).symm.trans (h.keyed _ _ found')
      exact eq (congrArg Prod.fst key)
    have absent : ∀ (m : Bytes), (∀ config, ¬ Newest (held c.cacheMap) m config) →
        ∀ v, held c.cacheMap (m, v) = none := by
      intro m none v
      cases found : held c.cacheMap (m, v) with
      | none => rfl
      | some config =>
        obtain ⟨newest, is_newest⟩ := h.exists_newest found
        exact absurd is_newest (none newest)
    have never' : ∀ config, ¬ Newest (held c.cacheMap) n' config := fun config newest =>
      never config ((same config).mpr newest)
    exact Or.inr fun v => ⟨absent n' never' v, absent n never v⟩
  · rintro (rfl | absent) config
    · exact Iff.rfl
    · constructor <;> intro newest <;> obtain ⟨v, found⟩ := newest.held_some
      · rw [(absent v).2] at found
        simp at found
      · rw [(absent v).1] at found
        simp at found

end Lookups

/-- A cache process after `init`. -/
def started (codec : JsonCodec text) (flagsCacheDir : Bytes) (listing : Option (List text))
    (files : Files text) : CacheProcess text :=
  ⟨(ConfigCache.init codec flagsCacheDir listing {}).1, files⟩

/-- What `init` and the events since have left under a name and version. -/
def cachedSince (start : CacheProcess text) (events : List CacheEvent)
    (i : Bytes × ModuleVersion) : Option ConfigInfo :=
  cachedIn (held start.cache.cacheMap i) events i

/-- The lookups are right exactly when the output message already has the name that is
asked for, or there is nothing under either name. -/
theorem cache_lookups_iff (codec : JsonCodec text) (types : ConfigTypes) (flagsCacheDir : Bytes)
    (listing : Option (List text)) (files : Files text) (events : List CacheEvent) (name : Bytes)
    (version : ModuleVersion) (out : ConfigInfo) :
    let start := started codec flagsCacheDir listing files
    let cached := cachedSince start events
    let p := (Run.all (cacheStep codec types) start events).1
    (Answers (fun config => cached (name, version) = some config)
        (p.cache.getConfigVersion name version out) ↔
      out.name = name ∨ cached (name, version) = none ∧ cached (out.name, version) = none) ∧
    (Answers (Newest cached name) (p.cache.getConfigLatest name out) ↔
      out.name = name ∨ ∀ v, cached (name, v) = none ∧ cached (out.name, v) = none) ∧
    ∀ i, held (removeConfigLessThan types name version p).1.cache.cacheMap i =
      if i.1 = name ∧ compare i.2 version = .lt then none else cached i := by
  intro start cached p
  have shelved : Shelved p.cache.cacheMap :=
    Shelved.run (shelved_init codec flagsCacheDir listing) events
  have followed : held p.cache.cacheMap = cached := funext fun i => held_run start events i
  refine ⟨?_, ?_, fun i => ?_⟩
  · rw [← followed, getConfigVersion_answers.iff_same]
    exact shelved.same_version_iff
  · rw [← followed, shelved.getConfigLatest_answers.iff_same]
    exact shelved.same_newest_iff
  · rw [← followed]
    exact held_removeConfigLessThan name version i

/-- A message as a caller starts with, which has no name yet. -/
theorem cached_config_not_found :
    ¬ ∀ (events : List CacheEvent) (name : Bytes) (version : ModuleVersion) (out : ConfigInfo),
      Answers (fun config =>
          cachedSince (started plainCodec [] none ∅) events (name, version) = some config)
        ((Run.all (cacheStep plainCodec someTypes) (started plainCodec [] none ∅) events).1.cache
          |>.getConfigVersion name version out) := by
  intro always
  have right := always [.addConfig (versioned 1)] [97] ⟨1, 2, 3⟩ {}
  have added : cachedSince (started plainCodec [] none ∅) [.addConfig (versioned 1)]
      ([97], ⟨1, 2, 3⟩) = some (versioned 1) := rfl
  have answered := congrArg Prod.fst ((right.found (versioned 1)).mpr added)
  cases answered

end EA
