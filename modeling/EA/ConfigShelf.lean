import EA.ConfigKeys
import EA.ConfigRemoval
import EA.ConfigVersions
import EA.DirectoryRuns

namespace EA

open ByteString Nested

variable {serialises : MetaValue → Bool}

/-- What the configs are for: a name has versions, and a version says what was stored as it. -/
abbrev Shelf := Bytes → ModuleVersion → Option ConfigInfo

namespace Shelf

def empty : Shelf := fun _ _ => none

def Has (s : Shelf) (name : Bytes) : Prop := ∃ version, (s name version).isSome

def set (s : Shelf) (name : Bytes) (version : ModuleVersion) (info : Option ConfigInfo) : Shelf :=
  Function.update s name (Function.update (s name) version info)

def drop (s : Shelf) (name : Bytes) : Shelf := Function.update s name fun _ => none

open Classical in
noncomputable def create (asked : ConfigInfo) (s : Shelf) : Shelf × Reply :=
  let version := asked.version.getD kDefaultVersion
  if (s asked.name version).isSome then (s, ⟨.inputParamError, "config already exist"⟩)
  else if ∃ old, (s asked.name old).isSome ∧ compare old version ≠ .lt then
    (s, ⟨.inputParamError, "Version numbers must increase monotonically"⟩)
  else (s.set asked.name version (some asked), ⟨.success, "success"⟩)

section Create

variable {s : Shelf} {asked : ConfigInfo} {version : ModuleVersion}

theorem create_of_stored (given : asked.version = some version) {info : ConfigInfo}
    (stored : s asked.name version = some info) :
    s.create asked = (s, ⟨.inputParamError, "config already exist"⟩) := by
  unfold create
  dsimp only
  rw [given, Option.getD_some, stored]
  exact if_pos rfl

theorem create_of_late (given : asked.version = some version) (absent : s asked.name version = none)
    (late : ∃ old, (s asked.name old).isSome ∧ compare old version ≠ .lt) :
    s.create asked =
      (s, ⟨.inputParamError, "Version numbers must increase monotonically"⟩) := by
  unfold create
  dsimp only
  rw [given, Option.getD_some, absent, if_neg (by simp), if_pos late]

theorem create_of_newest (given : asked.version = some version)
    (absent : s asked.name version = none)
    (newest : ¬ ∃ old, (s asked.name old).isSome ∧ compare old version ≠ .lt) :
    s.create asked = (s.set asked.name version (some asked), ⟨.success, "success"⟩) := by
  unfold create
  dsimp only
  rw [given, Option.getD_some, absent, if_neg (by simp), if_neg newest]

end Create

open Classical in
/-- Of a name that is there, versions are removed whether or not they are. -/
noncomputable def remove (dbOk : Bool) (asked : ConfigInfo) (s : Shelf) : Shelf × Reply :=
  if ¬ s.Has asked.name then (s, ⟨.parseToPbFail, "config not exist"⟩)
  else if !dbOk then (s, ⟨.internalError, "delete from db fail"⟩)
  else
    match asked.version with
    | none => (s.drop asked.name, ⟨.success, "success"⟩)
    | some version => (s.set asked.name version none, ⟨.success, "success"⟩)

/-- Only requests on configs concern the shelf. -/
noncomputable def answer (s : Shelf) : DiscoveryEvent → Shelf × Option Reply
  | .apply request env =>
    match request.opType with
    | .opCreateConfig =>
      let out := s.create request.configInfo
      (out.1, some out.2)
    | .opRemoveConfig =>
      let out := s.remove env.dbOk request.configInfo
      (out.1, some out.2)
    | _ => (s, none)
  | .reload => (s, none)
  | .restart => (s, none)

end Shelf

/-- The replica takes the event, and the replies to requests on configs are listened to. -/
def Replica.answerConfig (serialises : MetaValue → Bool) (r : Replica) (e : DiscoveryEvent) :
    Replica × Option Reply :=
  match e with
  | .apply request env =>
    let out := onApply serialises request env r
    (out.1, if request.opType = .opCreateConfig ∨ request.opType = .opRemoveConfig then
      some out.2 else none)
  | .reload => ((r.answer serialises .reload).1, none)
  | .restart => ((r.answer serialises .restart).1, none)

def inNumber (c : UInt8) : Bool := c = 45 || (48 ≤ c && c ≤ 57)

/-- The name ends in no character of a number. -/
def Delimited (name : Bytes) : Prop := name.getLast?.any inNumber = false

instance (name : Bytes) : Decidable (Delimited name) :=
  inferInstanceAs (Decidable (_ = false))

/-- A config is created with a version, under a delimited name, and goes to the database. -/
def Filed (serialises : MetaValue → Bool) : DiscoveryEvent → Prop
  | .apply request env => request.opType = .opCreateConfig →
    (Delimited request.configInfo.name ∧ request.configInfo.version.isSome = true) ∧
      serialises (.configInfo request.configInfo) = true ∧ env.dbOk = true
  | .reload => True
  | .restart => True

theorem DigitsMoved.not_delimited {name name' : Bytes} {version version' : ModuleVersion}
    (moved : DigitsMoved name version name' version') : ¬ Delimited name' := by
  obtain ⟨⟨digits, nonempty, rfl, major⟩, _⟩ := moved
  intro delimited
  have ends : (name ++ digits).getLast? = some (digits.getLast nonempty) := by
    simp [List.getLast?_append, List.getLast?_eq_some_getLast nonempty]
  have inside : digits.getLast nonempty ∈ decimal version.major := by
    rw [major]
    exact List.mem_append_left _ (List.getLast_mem nonempty)
  have number : inNumber (digits.getLast nonempty) = true := by
    rcases mem_decimal inside with sign | ⟨low, high⟩
    · rw [sign]
      rfl
    · simp [inNumber, low, high]
  rw [Delimited, ends, Option.any_some, number] at delimited
  cases delimited

/-- Delimited names share no key. -/
theorem delimited_keys {name name' : Bytes} (h : Delimited name) (h' : Delimited name')
    {version version' : ModuleVersion}
    (eq : makeConfigKey name version = makeConfigKey name' version') :
    name = name' ∧ version = version' := by
  rcases makeConfigKey_eq_iff_collide.mp eq with same | moved | moved
  · exact same
  · exact absurd h' moved.not_delimited
  · exact absurd h moved.not_delimited

/-- The configs are those of the shelf, in memory and in the database. -/
structure Stocked (db : MetaDb) (configs : ConfigTable) (s : Shelf) : Prop where
  kept : ConfigsKept db configs
  same : ∀ name version, find configs name version = s name version
  delimited : ∀ name, s.Has name → Delimited name

theorem stocked_empty : Stocked ∅ ∅ Shelf.empty where
  kept := configsKept_empty
  same := by simp [find, Shelf.empty]
  delimited := by
    rintro name ⟨version, stored⟩
    cases stored

namespace Stocked

variable {db : MetaDb} {configs : ConfigTable} {s : Shelf}

theorem has_iff (h : Stocked db configs s) {name : Bytes} :
    s.Has name ↔ ∃ versions, configs[name]? = some versions := by
  constructor
  · rintro ⟨version, stored⟩
    obtain ⟨info, found⟩ := Option.isSome_iff_exists.mp stored
    rw [← h.same] at found
    obtain ⟨versions, held, _⟩ := find_eq_some.mp found
    exact ⟨versions, held⟩
  · rintro ⟨versions, held⟩
    obtain ⟨version, info, entry⟩ := h.kept.noEmpty name versions held
    refine ⟨version, ?_⟩
    rw [← h.same, find_of_lookup held, entry]
    rfl

theorem lookup (h : Stocked db configs s) {name : Bytes} {versions : VersionTable}
    (held : configs[name]? = some versions) (version : ModuleVersion) :
    versions[version]? = s name version := by
  rw [← h.same, find_of_lookup held]

theorem noClash (h : Stocked db configs s) {name : Bytes} (delimited : Delimited name)
    (version : ModuleVersion) : ¬ Clash configs name version := by
  rintro ⟨name', version', info, found, ne, eq⟩
  have stored : s.Has name' := by
    refine ⟨version', ?_⟩
    rw [← h.same, found]
    rfl
  obtain ⟨rfl, rfl⟩ := delimited_keys (h.delimited name' stored) delimited eq
  exact ne rfl

theorem aboveStored_iff (h : Stocked db configs s) {name : Bytes} {version : ModuleVersion} :
    AboveStored configs name version ↔
      ¬ ∃ old, (s name old).isSome ∧ compare old version ≠ .lt := by
  constructor
  · rintro above ⟨old, stored, late⟩
    obtain ⟨info, found⟩ := Option.isSome_iff_exists.mp stored
    exact late (above old info ((h.same name old).trans found))
  · intro none old info found
    by_contra late
    refine none ⟨old, ?_, late⟩
    rw [← h.same, found]
    rfl

theorem frame {db' : MetaDb} (h : Stocked db configs s) (same : SameRecords configIdentify db db') :
    Stocked db' configs s := ⟨h.kept.frame same, h.same, h.delimited⟩

theorem put (h : Stocked db configs s) {info : ConfigInfo} {version : ModuleVersion}
    (versioned : info.version = some version) (delimited : Delimited info.name) :
    Stocked (db.insert (makeConfigKey info.name version) (.configInfo info))
      (Nested.put configs info.name version info) (s.set info.name version (some info)) where
  kept := h.kept.create versioned (h.noClash delimited version)
  same name' version' := by
    by_cases name : name' = info.name
    · subst name'
      by_cases same : version' = version
      · subst version'
        simp [Shelf.set, find_put_self]
      · have other : (info.name, version) ≠ (info.name, version') :=
          fun eq => same (Prod.mk.inj eq).2.symm
        rw [find_put_ne other, h.same]
        simp [Shelf.set, same]
    · have other : (info.name, version) ≠ (name', version') :=
        fun eq => name (Prod.mk.inj eq).1.symm
      rw [find_put_ne other, h.same]
      simp [Shelf.set, name]
  delimited name' := by
    rintro ⟨version', stored⟩
    by_cases name : name' = info.name
    · rw [name]
      exact delimited
    · refine h.delimited name' ⟨version', ?_⟩
      simpa [Shelf.set, name] using stored

theorem remove (h : Stocked db configs s) {name : Bytes} {versions : VersionTable}
    (held : configs[name]? = some versions) (version : ModuleVersion) :
    Stocked (db.erase (makeConfigKey name version)) (Nested.remove configs name version versions)
      (s.set name version none) where
  kept := h.kept.remove held (h.noClash (h.delimited name (h.has_iff.mpr ⟨versions, held⟩)) version)
  same name' version' := by
    by_cases same : name' = name
    · subst name'
      by_cases inner : version' = version
      · subst version'
        simp [Shelf.set, find_remove_self]
      · have other : (name, version) ≠ (name, version') :=
          fun eq => inner (Prod.mk.inj eq).2.symm
        rw [find_remove_ne held other, h.same]
        simp [Shelf.set, inner]
    · have other : (name, version) ≠ (name', version') :=
        fun eq => same (Prod.mk.inj eq).1.symm
      rw [find_remove_ne held other, h.same]
      simp [Shelf.set, same]
  delimited name' := by
    rintro ⟨version', stored⟩
    by_cases same : name' = name
    · rw [same]
      exact h.delimited name (h.has_iff.mpr ⟨versions, held⟩)
    · refine h.delimited name' ⟨version', ?_⟩
      simpa [Shelf.set, same] using stored

theorem removeAll (h : Stocked db configs s) {name : Bytes} {versions : VersionTable}
    (held : configs[name]? = some versions) :
    Stocked ((versions.keys.map fun version => (makeConfigKey name version, none)).foldl
      BatchOp.apply db) (configs.erase name) (s.drop name) where
  kept := h.kept.removeAll held
  same name' version' := by
    by_cases same : name' = name
    · subst name'
      simp [Shelf.drop, find_erase_self]
    · rw [find_erase_ne (Ne.symm same), h.same]
      simp [Shelf.drop, same]
  delimited name' := by
    rintro ⟨version', stored⟩
    refine h.delimited name' ⟨version', ?_⟩
    by_cases same : name' = name
    · subst name'
      simp [Shelf.drop] at stored
    · simpa [Shelf.drop, same] using stored

end Stocked

section Requests

variable {request : DiscoveryManagerRequest} {db : MetaDb} {configs : ConfigTable} {s : Shelf}

theorem createConfig_stored {versions : VersionTable} {info : ConfigInfo}
    (held : configs[request.configInfo.name]? = some versions)
    (stored : versions[request.createdVersion]? = some info) :
    createConfig request configs = .refuse .inputParamError "config already exist" configs := by
  unfold createConfig
  dsimp only
  have known : request.configInfo.version.getD kDefaultVersion ∈ versions :=
    Table.mem_iff_lookup.mpr ⟨info, stored⟩
  rw [Table.touch_of_lookup held, Table.getD_eq, held, Option.getD_some, if_pos known]

theorem createConfig_late {versions : VersionTable}
    (held : configs[request.configInfo.name]? = some versions)
    (absent : versions[request.createdVersion]? = none)
    (late : ¬ AboveStored configs request.configInfo.name request.createdVersion) :
    createConfig request configs =
      .refuse .inputParamError "Version numbers must increase monotonically" configs := by
  have newer : ¬ (newestVersion versions).all
      (fun newest => compare newest request.createdVersion = .lt) = true := by
    intro all
    refine late fun old info found => newestVersion_lt.mp all old info ?_
    rwa [find_of_lookup held] at found
  have overtaken : (newestVersion versions).any
      (fun newest => compare newest request.createdVersion ≠ .lt) = true := by
    cases newest : newestVersion versions with
    | none => simp [newest] at newer
    | some v => simpa [newest] using newer
  unfold createConfig
  dsimp only
  rw [Table.touch_of_lookup held, Table.getD_eq, held, Option.getD_some, if_neg]
  · exact if_pos overtaken
  · intro known
    obtain ⟨info, stored⟩ := Table.mem_iff_lookup.mp known
    cases absent.symm.trans stored

theorem removeConfig_all {versions : VersionTable} (all : request.configInfo.version = none)
    (held : configs[request.configInfo.name]? = some versions) :
    removeConfig request configs = .write none
      (versions.keys.map fun version => (makeConfigKey request.configInfo.name version, none))
      "delete from db fail" configs (configs.erase request.configInfo.name) := by
  simp only [removeConfig, removeConfigAll, all, held]

theorem removeConfig_one {versions : VersionTable} {version : ModuleVersion}
    (one : request.configInfo.version = some version)
    (held : configs[request.configInfo.name]? = some versions) :
    removeConfig request configs = .write none
      [(makeConfigKey request.configInfo.name version, none)] "delete from db fail" configs
      (Nested.remove configs request.configInfo.name version versions) := by
  simp only [removeConfig, one, held, Nested.remove]

/-- The reply is the shelf's, and so is what is stored afterwards. -/
theorem createConfig_follows (h : Stocked db configs s)
    (delimited : Delimited request.configInfo.name)
    (versioned : request.configInfo.version.isSome = true)
    (fits : serialises (.configInfo request.configInfo) = true) :
    ((createConfig request configs).run serialises true db).2 = (s.create request.configInfo).2 ∧
      Stocked ((createConfig request configs).run serialises true db).1.1
        ((createConfig request configs).run serialises true db).1.2
        (s.create request.configInfo).1 := by
  obtain ⟨version, given⟩ := Option.isSome_iff_exists.mp versioned
  have asked : request.createdVersion = version := by
    rw [DiscoveryManagerRequest.createdVersion, given]
    rfl
  have kept : AboveStored configs request.configInfo.name version ↔
      ¬ ∃ old, (s request.configInfo.name old).isSome ∧ compare old version ≠ .lt :=
    h.aboveStored_iff
  by_cases late : ∃ old, (s request.configInfo.name old).isSome ∧ compare old version ≠ .lt
  · have above : ¬ AboveStored configs request.configInfo.name request.createdVersion := by
      rw [asked, kept]
      exact fun none => none late
    have has : s.Has request.configInfo.name := late.imp fun _ old => old.1
    obtain ⟨versions, held⟩ := h.has_iff.mp has
    have entry := h.lookup held request.createdVersion
    rw [asked] at entry
    cases found : s request.configInfo.name version with
    | some info =>
      rw [Shelf.create_of_stored given found]
      rw [createConfig_stored held (by rw [asked, entry, found])]
      exact ⟨rfl, h⟩
    | none =>
      rw [Shelf.create_of_late given found late]
      rw [createConfig_late held (by rw [asked, entry, found]) above]
      exact ⟨rfl, h⟩
  · have above : AboveStored configs request.configInfo.name request.createdVersion := by
      rw [asked, kept]
      exact late
    have absent : s request.configInfo.name version = none := by
      rw [← h.same, ← asked]
      exact above.absent
    rw [createConfig_accepted above, asked, Shelf.create_of_newest given absent late]
    have next := h.put given delimited
    simp only [Plan.run, fits, Option.any_some, Bool.not_true, Bool.false_eq_true, if_false]
    exact ⟨trivial, next⟩

variable (serialises) in
theorem removeConfig_follows (h : Stocked db configs s) (dbOk : Bool) :
    ((removeConfig request configs).run serialises dbOk db).2 =
        (s.remove dbOk request.configInfo).2 ∧
      Stocked ((removeConfig request configs).run serialises dbOk db).1.1
        ((removeConfig request configs).run serialises dbOk db).1.2
        (s.remove dbOk request.configInfo).1 := by
  cases held : configs[request.configInfo.name]? with
  | none =>
    have absent : ¬ s.Has request.configInfo.name := by
      intro has
      obtain ⟨versions, here⟩ := h.has_iff.mp has
      rw [held] at here
      cases here
    rw [removeConfig_absent held, Shelf.remove, if_pos absent]
    exact ⟨rfl, h⟩
  | some versions =>
    have has : ¬ ¬ s.Has request.configInfo.name := not_not_intro (h.has_iff.mpr ⟨versions, held⟩)
    rw [Shelf.remove, if_neg has]
    cases all : request.configInfo.version with
    | none =>
      rw [removeConfig_all all held]
      cases dbOk with
      | false => exact ⟨rfl, h⟩
      | true => exact ⟨rfl, h.removeAll held⟩
    | some version =>
      rw [removeConfig_one all held]
      cases dbOk with
      | false => exact ⟨rfl, h⟩
      | true => exact ⟨rfl, h.remove held version⟩

end Requests

section Runs

variable {r : Replica} {s : Shelf}

variable (serialises) in
theorem onApply_other {request : DiscoveryManagerRequest} (env : Env)
    (h : Stocked r.db r.memory.configs s) (create : request.opType ≠ .opCreateConfig)
    (remove : request.opType ≠ .opRemoveConfig) :
    Stocked (onApply serialises request env r).1.db
      (onApply serialises request env r).1.memory.configs s := by
  have applied := onApply_applied serialises request env r
  generalize onApply serialises request env r = out at applied
  cases applied with
  | schema p plan => exact h.frame (Plan.run_otherTag (schemaPlan_step plan).tagged (by decide))
  | users p plan => exact h.frame (Plan.run_otherTag (usersPlan_step plan).tagged (by decide))
  | instances p plan =>
    exact h.frame (Plan.run_otherTag (instancesPlan_step plan).tagged (by decide))
  | unknown => exact h
  | configs p plan =>
    unfold configsPlan at plan
    split at plan
    next op => exact absurd op create
    next op => exact absurd op remove
    next => cases plan

theorem loadSnapshot_configs (h : Stocked r.db r.memory.configs s) {m m' : Memory}
    (load : loadSnapshot r.db m = some m') : Stocked r.db m'.configs s := by
  have loaded := (loadSnapshot_eq_some load).2.2.1
  rw [loadConfigs_eq h.kept] at loaded
  exact Option.some.inj loaded ▸ h

/-- One event is answered as the shelf answers it. -/
theorem answerConfig_follows (h : Stocked r.db r.memory.configs s) {e : DiscoveryEvent}
    (filed : Filed serialises e) :
    (r.answerConfig serialises e).2 = (s.answer e).2 ∧
      Stocked (r.answerConfig serialises e).1.db (r.answerConfig serialises e).1.memory.configs
        (s.answer e).1 := by
  cases e with
  | apply request env =>
    by_cases create : request.opType = .opCreateConfig
    · obtain ⟨⟨delimited, versioned⟩, fits, works⟩ := filed create
      obtain ⟨reply, next⟩ := createConfig_follows h delimited versioned fits
      simp only [Replica.answerConfig, Shelf.answer, create, true_or, if_true]
      rw [onApply_configs (configsPlan_create create r.memory.configs) env, works]
      exact ⟨congrArg some reply, next⟩
    · by_cases remove : request.opType = .opRemoveConfig
      · obtain ⟨reply, next⟩ := removeConfig_follows serialises h env.dbOk
        simp only [Replica.answerConfig, Shelf.answer, remove, or_true, if_true]
        rw [onApply_configs (configsPlan_remove remove r.memory.configs) env]
        exact ⟨congrArg some reply, next⟩
      · have next := onApply_other serialises env h create remove
        have quiet : s.answer (.apply request env) = (s, none) := by
          unfold Shelf.answer
          split <;> simp_all
        rw [quiet]
        simp only [Replica.answerConfig, create, remove, or_false, if_false]
        exact ⟨trivial, next⟩
  | reload =>
    refine ⟨rfl, ?_⟩
    simp only [Replica.answerConfig, Replica.answer, Shelf.answer]
    cases load : loadSnapshot r.db r.memory with
    | none => exact h
    | some m => exact loadSnapshot_configs h load
  | restart =>
    refine ⟨rfl, ?_⟩
    simp only [Replica.answerConfig, Replica.answer, Shelf.answer]
    cases load : loadSnapshot r.db {} with
    | none => exact h
    | some m => exact loadSnapshot_configs h load

/-- What a client that queries the replica sees is the shelf. -/
structure Shelf.Shown (s : Shelf) (trim : Bytes → Bytes) (order : HashOrder) (m : Memory) :
    Prop where
  versioned : ∀ (q : DiscoveryQueryRequest) (name : Bytes) (version : ModuleVersion),
    q.opType = .queryGetConfig → q.configName = some name → q.configVersion = some version →
    discoveryQuery trim order q m =
      shownAs "config not exist" (fun info => { configInfos := [info] }) (s name version)
  newest : ∀ (q : DiscoveryQueryRequest) (name : Bytes), q.opType = .queryGetConfig →
    q.configName = some name → q.configVersion = none → s.Has name →
    ∃ version info, s name version = some info ∧
      (∀ old, (s name old).isSome → old = version ∨ compare old version = .lt) ∧
      discoveryQuery trim order q m = { configInfos := [info] }
  missing : ∀ (q : DiscoveryQueryRequest) (name : Bytes),
    q.opType = .queryGetConfig ∨ q.opType = .queryListConfigVersion →
    q.configName = some name → ¬ s.Has name →
    discoveryQuery trim order q m = inputParamError (ascii "config not exist")
  named : ∀ q : DiscoveryQueryRequest, q.opType = .queryListConfig →
    ∃ names : List Bytes, names.Nodup ∧ (∀ name, name ∈ names ↔ s.Has name) ∧
      discoveryQuery trim order q m = { configInfos := names.map fun name => { name := name } }
  listed : ∀ (q : DiscoveryQueryRequest) (name : Bytes), q.opType = .queryListConfigVersion →
    q.configName = some name → s.Has name →
    ∃ versions : List ModuleVersion, versions.Pairwise (fun a b => compare a b = .lt) ∧
      (∀ version, version ∈ versions ↔ (s name version).isSome) ∧
      discoveryQuery trim order q m = { configInfos := versions.filterMap (s name) }

theorem Stocked.shown {db : MetaDb} {m : Memory} (h : Stocked db m.configs s)
    (trim : Bytes → Bytes) (order : HashOrder) : s.Shown trim order m := by
  have absent : ∀ {name}, ¬ s.Has name → m.configs[name]? = none := by
    intro name none
    cases held : m.configs[name]? with
    | none => rfl
    | some versions => exact absurd (h.has_iff.mpr ⟨versions, held⟩) none
  constructor
  case versioned =>
    intro q name version op named asked
    simp only [discoveryQuery, op, getConfig, named, asked]
    cases held : m.configs[name]? with
    | none =>
      have entry : s name version = none := by
        rw [← h.same, find, held]
        rfl
      rw [entry]
      rfl
    | some versions =>
      dsimp only
      rw [h.lookup held]
      cases s name version <;> rfl
  case newest =>
    rintro q name op named unversioned ⟨version, stored⟩
    obtain ⟨info, found⟩ := Option.isSome_iff_exists.mp stored
    rw [← h.same] at found
    obtain ⟨newest, info', here, greatest, shown⟩ := getConfig_newest named unversioned found
    refine ⟨newest, info', (h.same name newest).symm.trans here, fun old stored => ?_, ?_⟩
    · obtain ⟨info, found⟩ := Option.isSome_iff_exists.mp stored
      exact greatest old info ((h.same name old).trans found)
    · simp only [discoveryQuery, op, shown]
  case missing =>
    intro q name op named none
    rcases op with op | op
    · simp only [discoveryQuery, op, getConfig, named, absent none]
    · simp only [discoveryQuery, op, listConfigVersion, named, absent none]
  case named =>
    intro q op
    have walked := order.walk_perm m.configs.keys
    refine ⟨order.walk m.configs.keys, ?_, fun name => ?_, ?_⟩
    · exact walked.nodup_iff.mpr Std.ExtTreeMap.nodup_keys
    · rw [walked.mem_iff, Std.ExtTreeMap.mem_keys, h.has_iff]
      exact Table.mem_iff_lookup
    · simp only [discoveryQuery, op, listConfig]
  case listed =>
    intro q name op named has
    obtain ⟨versions, held⟩ := h.has_iff.mp has
    refine ⟨versions.keys, Std.ExtTreeMap.ordered_keys, fun version => ?_, ?_⟩
    · rw [Std.ExtTreeMap.mem_keys, Table.mem_iff_lookup, ← h.lookup held]
      exact Option.isSome_iff_exists.symm
    · simp only [discoveryQuery, op, listConfigVersion, named, held, Table.vals_eq_filterMap,
        h.lookup held]

/-- Over any run with requests of every kind, in which configs are created under delimited
names, replies and query answers about configs are those of a shelf of versions. -/
theorem shelf_refined {events : List DiscoveryEvent} (filed : ∀ e ∈ events, Filed serialises e) :
    (Run.all (Replica.answerConfig serialises) {} events).2 =
        (Run.all Shelf.answer Shelf.empty events).2 ∧
      ∀ (trim : Bytes → Bytes) (order : HashOrder),
        (Run.all Shelf.answer Shelf.empty events).1.Shown trim order
          (Run.all (Replica.answerConfig serialises) {} events).1.memory := by
  have same : List.Forall₂ (fun e e' => e = e' ∧ Filed serialises e) events events :=
    List.forall₂_same.mpr fun e mem => ⟨rfl, filed e mem⟩
  have follows : ∀ (r : Replica) (s : Shelf) (e e' : DiscoveryEvent),
      Stocked r.db r.memory.configs s → e = e' ∧ Filed serialises e → True →
      (r.answerConfig serialises e).2 = (s.answer e').2 ∧
        Stocked (r.answerConfig serialises e).1.db
          (r.answerConfig serialises e).1.memory.configs (s.answer e').1 := by
    rintro r s e _ stocked ⟨rfl, filed⟩ _
    exact answerConfig_follows stocked filed
  have start : Stocked ({} : Replica).db ({} : Replica).memory.configs Shelf.empty := stocked_empty
  obtain ⟨answers, final⟩ := Run.lockstep follows same start fun _ _ _ _ => trivial
  exact ⟨answers, final.shown⟩

end Runs

instance (e : DiscoveryEvent) : Decidable (Filed serialises e) :=
  match e with
  | .apply .. => inferInstanceAs (Decidable (_ → _))
  | .reload => isTrue trivial
  | .restart => isTrue trivial

theorem shelf_refined_after_removal :
    (Run.all (Replica.answerConfig fun _ => true) {} (configEvents ++ [.restart])).2 =
        (Run.all Shelf.answer Shelf.empty (configEvents ++ [.restart])).2 ∧
      ∀ (trim : Bytes → Bytes) (order : HashOrder),
        (Run.all Shelf.answer Shelf.empty (configEvents ++ [.restart])).1.Shown trim order
          (Run.all (Replica.answerConfig fun _ => true) {} (configEvents ++ [.restart])).1.memory :=
  shelf_refined (by decide)

end EA
