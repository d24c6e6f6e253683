import EA.CacheLookups
import EA.ConfigShelf
import EA.LatestConfig

namespace EA

open ByteString

/-- What a `get_config` of the config client returns, and what it wrote to its out parameters. -/
structure ConfigRead where
  status : Except Status Unit
  content : Option Bytes := none
  version : Option Bytes := none
  type : Option Bytes := none

def ConfigRead.failed (err : Status) : ConfigRead := { status := .error err }

def ConfigRead.ofVersion (types : ConfigTypes) (config : ConfigInfo) : ConfigRead where
  status := .ok ()
  content := some config.content
  type := some (configTypeToString types config.type)

def ConfigRead.ofLatest (types : ConfigTypes) (status : Except Status Unit) (config : ConfigInfo) :
    ConfigRead where
  status := status
  content := some config.content
  version := some config.moduleVersion.toBytes
  type := some (configTypeToString types config.type)

/-- `DiscoveryClient::get_config` of one version. -/
def DiscoveryClient.getConfig (lib : StringLib) (query : QuerySender) (configName version : Bytes) :
    Except Status ConfigInfo :=
  match stringToVersion lib version with
  | .error err => .error err
  | .ok asked =>
    match ask query { opType := .queryGetConfig, configName := some configName,
                      configVersion := some asked } with
    | .error err => .error err
    | .ok response =>
      match response.configInfos with
      | [config] => .ok config
      | _ => .error ⟨.invalidArgument, ascii "bad proto for config list size not 1"⟩

section Reads

variable {text : Type} (codec : JsonCodec text) (types : ConfigTypes)

/-- `ConfigClient::get_config` of one version. What `add_config` says is not returned. -/
def ConfigClient.getConfigVersion (lib : StringLib) (query : QuerySender)
    (configName version : Bytes) (c : ConfigClient text) : ConfigClient text × ConfigRead :=
  match stringToVersion lib version with
  | .error err => (c, .failed err)
  | .ok mv =>
    match c.cache.cache.getConfigVersion configName mv {} with
    | (.ok _, config) => (c, .ofVersion types config)
    | (.error _, _) =>
      match DiscoveryClient.getConfig lib query configName version with
      | .error err => (c, .failed err)
      | .ok config =>
        ({ c with cache := (addConfig codec types config c.cache).1 }, .ofVersion types config)

/-- `ConfigClient::get_config` of the latest version. It returns what `add_config` says. -/
def ConfigClient.getConfigLatest (query : QuerySender) (configName : Bytes)
    (c : ConfigClient text) : ConfigClient text × ConfigRead :=
  match c.cache.cache.getConfigLatest configName {} with
  | (.ok _, config) => (c, .ofLatest types (.ok ()) config)
  | (.error _, _) =>
    match DiscoveryClient.getConfigLatest query configName with
    | .error err => (c, .failed err)
    | .ok config =>
      let added := addConfig codec types config c.cache
      ({ c with cache := added.1 }, .ofLatest types added.2 config)

end Reads

/-- A server and one of its config clients. -/
structure ConfigSite (text : Type) where
  server : Replica := {}
  client : ConfigClient text := {}

/-- `net` is the error of the network, if there is one. -/
inductive SiteEvent where
  | server (e : DiscoveryEvent)
  | client (e : ClientEvent)
  /-- The loop of `period_check` asks the server for a name. -/
  | check (name : Bytes) (net : Option Status)
  | getVersion (name version : Bytes) (net : Option Status)
  | getLatest (name : Bytes) (net : Option Status)
  /-- A call on the cache. -/
  | cache (e : CacheEvent)

inductive SiteAnswer where
  | replied (reply : Option Reply)
  | told (deliveries : List Delivery)
  | read (out : ConfigRead)
  | quiet

namespace ConfigSite

variable {text : Type} (serialises : MetaValue → Bool) (trim : Bytes → Bytes) (order : HashOrder)
  (lib : StringLib) (codec : JsonCodec text) (types : ConfigTypes)

def query (s : ConfigSite text) (net : Option Status) : QuerySender := fun request =>
  match net with
  | some err => .error err
  | none => s.server.memory.serve trim order request

def step (s : ConfigSite text) : SiteEvent → ConfigSite text × SiteAnswer
  | .server e =>
    let out := s.server.answerConfig serialises e
    ({ s with server := out.1 }, .replied out.2)
  | .client e => ({ s with client := (clientStep codec types s.client e).getD s.client }, .quiet)
  | .check name net =>
    match clientStep codec types s.client
      (.check name (DiscoveryClient.getConfigLatest (s.query trim order net) name)) with
    | none => (s, .told [])
    | some c =>
      ({ s with client := c }, .told (c.delivered.drop s.client.delivered.length))
  | .getVersion name version net =>
    let out := s.client.getConfigVersion codec types lib (s.query trim order net) name version
    ({ s with client := out.1 }, .read out.2)
  | .getLatest name net =>
    let out := s.client.getConfigLatest codec types (s.query trim order net) name
    ({ s with client := out.1 }, .read out.2)
  | .cache e =>
    ({ s with client := { s.client with cache := (cacheStep codec types s.client.cache e).1 } },
      .quiet)

end ConfigSite

/-- The greatest version of a name. -/
structure Shelf.Newest (s : Shelf) (name : Bytes) (version : ModuleVersion) (info : ConfigInfo) :
    Prop where
  stored : s name version = some info
  greatest : ∀ old, (s name old).isSome → old = version ∨ compare old version = .lt

/-- What a user of the client can know: the shelf, and what lies in the cache. -/
structure SiteView where
  shelf : Shelf
  cached : Bytes × ModuleVersion → Option ConfigInfo

def SiteView.after (v : SiteView) (e : CacheEvent) : SiteView :=
  { v with cached := fun i => cachedAfter i (v.cached i) e }

def configNotExist : Status := ⟨.unknown, ascii "config not exist"⟩

/-- A listener is told of this config. -/
def Delivery.Tells (types : ConfigTypes) (d : Delivery) (info : ConfigInfo) : Prop :=
  d.data.configName = info.name ∧ d.data.newVersion = info.moduleVersion ∧
    d.data.newContent = info.content ∧ d.data.type = configTypeToString types info.type

/-- Reads and listeners are served from the shelf as it is at that moment, never from the
cache. All that the cache does is to make the second read of a latest version fail. -/
inductive SiteView.Step (lib : StringLib) (types : ConfigTypes) (v : SiteView) :
    SiteEvent → SiteAnswer → SiteView → Prop
  | server (e : DiscoveryEvent) : Step lib types v (.server e) (.replied (v.shelf.answer e).2)
      { v with shelf := (v.shelf.answer e).1 }
  | client (e : ClientEvent) : Step lib types v (.client e) .quiet v
  | cache (e : CacheEvent) : Step lib types v (.cache e) .quiet (v.after e)
  | unchecked (name : Bytes) (net : Option Status) :
      Step lib types v (.check name net) (.told []) v
  | checked (name : Bytes) (version : ModuleVersion) (info : ConfigInfo)
      (deliveries : List Delivery) (newest : v.shelf.Newest name version info)
      (tells : ∀ d ∈ deliveries, d.Tells types info) :
      Step lib types v (.check name none) (.told deliveries) (v.after (.addConfig info))
  | notVersion (name version : Bytes) (net : Option Status) (err : Status)
      (parse : stringToVersion lib version = .error err) :
      Step lib types v (.getVersion name version net) (.read (.failed err)) v
  | versionLost (name version : Bytes) (asked : ModuleVersion) (err : Status)
      (parse : stringToVersion lib version = .ok asked) :
      Step lib types v (.getVersion name version (some err)) (.read (.failed err)) v
  | noVersion (name version : Bytes) (asked : ModuleVersion)
      (parse : stringToVersion lib version = .ok asked) (absent : v.shelf name asked = none) :
      Step lib types v (.getVersion name version none) (.read (.failed configNotExist)) v
  | gotVersion (name version : Bytes) (asked : ModuleVersion) (info : ConfigInfo)
      (parse : stringToVersion lib version = .ok asked) (found : v.shelf name asked = some info) :
      Step lib types v (.getVersion name version none) (.read (.ofVersion types info))
        (v.after (.addConfig info))
  | latestLost (name : Bytes) (err : Status) :
      Step lib types v (.getLatest name (some err)) (.read (.failed err)) v
  | noLatest (name : Bytes) (absent : ¬ v.shelf.Has name) :
      Step lib types v (.getLatest name none) (.read (.failed configNotExist)) v
  | gotLatest (name : Bytes) (version : ModuleVersion) (info : ConfigInfo)
      (newest : v.shelf.Newest name version info) (free : v.cached (name, version) = none) :
      Step lib types v (.getLatest name none) (.read (.ofLatest types (.ok ()) info))
        (v.after (.addConfig info))
  | latestAgain (name : Bytes) (version : ModuleVersion) (info : ConfigInfo)
      (newest : v.shelf.Newest name version info) (held : (v.cached (name, version)).isSome) :
      Step lib types v (.getLatest name none)
        (.read (.ofLatest types (.error ⟨.alreadyExists, []⟩) info)) v

/-- A config that is created has a name. -/
def NamesConfigs : DiscoveryEvent → Prop
  | .apply request _ => request.opType = .opCreateConfig → request.configInfo.name ≠ []
  | .reload => True
  | .restart => True

/-- The view says what server and cache hold. Nothing is held without a name, and so
the cache, which is searched for the empty name, never answers. -/
structure Viewed {text : Type} (s : ConfigSite text) (v : SiteView) : Prop where
  stocked : Stocked s.server.db s.server.memory.configs v.shelf
  same : ∀ i, held s.client.cache.cache.cacheMap i = v.cached i
  shelved : ¬ v.shelf.Has []
  cached : ∀ version, v.cached ([], version) = none

theorem has_of_create {s : Shelf} {asked : ConfigInfo} {name : Bytes}
    (has : (s.create asked).1.Has name) : s.Has name ∨ name = asked.name := by
  by_cases same : name = asked.name
  · exact Or.inr same
  · left
    obtain ⟨version, stored⟩ := has
    refine ⟨version, ?_⟩
    unfold Shelf.create at stored
    dsimp only at stored
    split at stored
    next => exact stored
    next =>
      split at stored
      next => exact stored
      next => simpa [Shelf.set, same] using stored

/-- A removal adds no version. -/
theorem has_of_remove {s : Shelf} {dbOk : Bool} {asked : ConfigInfo} {name : Bytes}
    (has : (s.remove dbOk asked).1.Has name) : s.Has name := by
  obtain ⟨version, stored⟩ := has
  refine ⟨version, ?_⟩
  unfold Shelf.remove at stored
  split at stored
  next => exact stored
  next =>
    split at stored
    next => exact stored
    next =>
      split at stored
      next =>
        by_cases same : name = asked.name
        · subst same
          simp [Shelf.drop] at stored
        · simpa [Shelf.drop, same] using stored
      next gone _ =>
        by_cases same : name = asked.name
        · subst same
          by_cases inner : version = gone
          · subst inner
            simp [Shelf.set] at stored
          · simpa [Shelf.set, inner] using stored
        · simpa [Shelf.set, same] using stored

theorem not_has_answer {s : Shelf} (absent : ¬ s.Has []) {e : DiscoveryEvent}
    (named : NamesConfigs e) : ¬ (s.answer e).1.Has [] := by
  cases e with
  | reload => exact absent
  | restart => exact absent
  | apply request env =>
    intro has
    cases op : request.opType with
    | opCreateConfig =>
      simp only [Shelf.answer, op] at has
      rcases has_of_create has with there | unnamed
      · exact absent there
      · exact named op unnamed.symm
    | opRemoveConfig =>
      simp only [Shelf.answer, op] at has
      exact absent (has_of_remove has)
    | _ =>
      simp only [Shelf.answer, op] at has
      exact absent has

section Misses

variable {c : ConfigCache} (nameless : ∀ version, held c.cacheMap ([], version) = none)

end Misses

section Answers

variable {trim : Bytes → Bytes} {order : HashOrder} {db : MetaDb} {m : Memory} {s : Shelf}
  (h : Stocked db m.configs s)

theorem Stocked.cacheKey (h : Stocked db m.configs s) {name : Bytes} {version : ModuleVersion}
    {info : ConfigInfo} (stored : s name version = some info) :
    info.cacheKey = (name, version) := by
  obtain ⟨named, versioned⟩ := h.kept.named name version info ((h.same name version).trans stored)
  rw [ConfigInfo.cacheKey, ConfigInfo.moduleVersion, named, versioned]
  rfl

end Answers

section Steps

variable {text : Type} {serialises : MetaValue → Bool} {trim : Bytes → Bytes}
  {order : HashOrder} {lib : StringLib} {codec : JsonCodec text}
  {types : ConfigTypes} {s : ConfigSite text} {v : SiteView}

/-- A config from the shelf goes into the cache. -/
theorem Viewed.added (h : Viewed s v) {name : Bytes} {version : ModuleVersion} {info : ConfigInfo}
    (stored : v.shelf name version = some info) {c : ConfigClient text}
    (cache : c.cache = (addConfig codec types info s.client.cache).1) :
    Viewed { s with client := c } (v.after (.addConfig info)) where
  stocked := h.stocked
  same i := by
    dsimp only
    rw [cache]
    exact (held_cacheStep s.client.cache (.addConfig info) i).trans
      (congrArg (fun cached => cachedAfter i cached (.addConfig info)) (h.same i))
  shelved := h.shelved
  cached version' := by
    have key := h.stocked.cacheKey stored
    have other : info.cacheKey ≠ ([], version') := by
      rw [key]
      rintro same
      cases same
      exact h.shelved ⟨_, by rw [stored]; rfl⟩
    simp [SiteView.after, cachedAfter, CacheEvent.Removes, other, h.cached]

/-- A step of the client that leaves the cache alone. -/
theorem Viewed.kept (h : Viewed s v) {c : ConfigClient text} (cache : c.cache = s.client.cache) :
    Viewed { s with client := c } v where
  stocked := h.stocked
  same i := by
    dsimp only
    rw [cache]
    exact h.same i
  shelved := h.shelved
  cached := h.cached

theorem Viewed.cacheStep (h : Viewed s v) {e : CacheEvent}
    (served : ∀ config, e ≠ .addConfig config) :
    Viewed { s with client := { s.client with
      cache := (EA.cacheStep codec types s.client.cache e).1 } } (v.after e) where
  stocked := h.stocked
  same i := (held_cacheStep s.client.cache e i).trans
    (congrArg (fun cached => cachedAfter i cached e) (h.same i))
  shelved := h.shelved
  cached version := by
    cases kept : cachedAfter ([], version) (v.cached ([], version)) e with
    | none => exact kept
    | some config =>
      rw [h.cached] at kept
      exact absurd (cachedAfter_none kept).1 (served config)

theorem Viewed.server (h : Viewed s v) {e : DiscoveryEvent} (filed : Filed serialises e)
    (named : NamesConfigs e) :
    (s.server.answerConfig serialises e).2 = (v.shelf.answer e).2 ∧
      Viewed { s with server := (s.server.answerConfig serialises e).1 }
        { v with shelf := (v.shelf.answer e).1 } := by
  obtain ⟨reply, next⟩ := answerConfig_follows h.stocked filed
  refine ⟨reply, next, h.same, ?_, h.cached⟩
  exact not_has_answer h.shelved named

end Steps

end EA
