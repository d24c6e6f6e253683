import EA.ClientUtility
import EA.ConfigManager
import EA.Lib.Filed
import EA.Lib.Lockstep
import EA.Lib.Nested

namespace EA

open ByteString

/-- `_cache_map` has the shape of the server's config map. -/
structure ConfigCache where
  cacheMap : ConfigTable := ∅
  cacheDir : Bytes := []
  inited : Bool := false

/-- Files by their paths. What JSON text a file holds is left abstract. -/
abbrev Files (text : Type) := Table Bytes text

/-- The JSON dumper and loader, which are inverse. -/
structure JsonCodec (text : Type) where
  dumpProto : ConfigInfo → text
  loadProto : text → Except Bytes ConfigInfo
  load_dump : ∀ config, loadProto (dumpProto config) = .ok config

def ConfigInfo.moduleVersion (config : ConfigInfo) : ModuleVersion := config.version.getD {}

/-- The path holds the minor version twice and the major version nowhere. -/
def makeCacheFilePath (types : ConfigTypes) (dir : Bytes) (config : ConfigInfo) : Bytes :=
  let version := config.moduleVersion
  dir ++ 47 :: config.name ++ 45 :: decimal version.minor ++ 46 :: decimal version.minor ++
    46 :: decimal version.patch ++ 46 :: configTypeToString types config.type

structure CacheProcess (text : Type) where
  cache : ConfigCache := {}
  files : Files text := ∅

section Operations

variable {text : Type} (codec : JsonCodec text) (types : ConfigTypes)

def writeConfigFile (dir : Bytes) (config : ConfigInfo) (files : Files text) : Files text :=
  if dir = [] then files
  else files.insert (makeCacheFilePath types dir config) (codec.dumpProto config)

def removeConfigFile (dir : Bytes) (files : Files text) (config : ConfigInfo) : Files text :=
  if dir = [] then files else files.erase (makeCacheFilePath types dir config)

def doAddConfig (m : ConfigTable) (config : ConfigInfo) : ConfigTable :=
  Nested.put m config.name config.moduleVersion config

def addConfig (config : ConfigInfo) (p : CacheProcess text) :
    CacheProcess text × Except Status Unit :=
  if (Nested.find p.cache.cacheMap config.name config.moduleVersion).isSome then
    (p, .error ⟨.alreadyExists, []⟩)
  else
    ({ cache := { p.cache with cacheMap := doAddConfig p.cache.cacheMap config },
       files := writeConfigFile codec types p.cache.cacheDir config p.files }, .ok ())

def removeConfigVersion (name : Bytes) (version : ModuleVersion) (p : CacheProcess text) :
    CacheProcess text × Except Status Unit :=
  match p.cache.cacheMap[name]? with
  | none => (p, .error ⟨.notFound, []⟩)
  | some versions =>
    match versions[version]? with
    | none => (p, .error ⟨.notFound, []⟩)
    | some config =>
      ({ cache := { p.cache with
           cacheMap := Nested.keep p.cache.cacheMap name (versions.erase version) },
         files := removeConfigFile types p.cache.cacheDir p.files config }, .ok ())

/-- One round of the loop over the given versions. -/
def removeListed (dir : Bytes) (s : VersionTable × Files text) (version : ModuleVersion) :
    VersionTable × Files text :=
  match s.1[version]? with
  | none => s
  | some config => (s.1.erase version, removeConfigFile types dir s.2 config)

def removeConfigVersions (name : Bytes) (listed : List ModuleVersion) (p : CacheProcess text) :
    CacheProcess text × Except Status Unit :=
  match p.cache.cacheMap[name]? with
  | none => (p, .error ⟨.notFound, []⟩)
  | some versions =>
    let rest := listed.foldl (removeListed types p.cache.cacheDir) (versions, p.files)
    ({ cache := { p.cache with cacheMap := Nested.keep p.cache.cacheMap name rest.1 },
       files := rest.2 }, .ok ())

def isLess (version v : ModuleVersion) : Bool := compare v version == .lt

/-- The entries before `lower_bound(version)` go, and their files. -/
def removeConfigLessThan (name : Bytes) (version : ModuleVersion) (p : CacheProcess text) :
    CacheProcess text × Except Status Unit :=
  match p.cache.cacheMap[name]? with
  | none => (p, .error ⟨.notFound, []⟩)
  | some versions =>
    let below := (Table.scan (isLess version) versions).map Prod.snd
    ({ cache := { p.cache with
         cacheMap := Nested.keep p.cache.cacheMap name
           (versions.filter fun v _ => !isLess version v) },
       files := below.foldl (removeConfigFile types p.cache.cacheDir) p.files }, .ok ())

def removeCachedConfig (name : Bytes) (p : CacheProcess text) :
    CacheProcess text × Except Status Unit :=
  match p.cache.cacheMap[name]? with
  | none => (p, .error ⟨.notFound, []⟩)
  | some versions =>
    ({ cache := { p.cache with cacheMap := p.cache.cacheMap.erase name },
       files := versions.vals.foldl (removeConfigFile types p.cache.cacheDir) p.files }, .ok ())

/-- The loop of `init`: a file that does not load ends it. -/
def loadFiles : ConfigTable → List text → ConfigTable × Except Status Unit
  | m, [] => (m, .ok ())
  | m, file :: rest =>
    match codec.loadProto file with
    | .error err => (m, .error ⟨.invalidArgument, err⟩)
    | .ok config => loadFiles (doAddConfig m config) rest

/-- `listing` is what the directory iterator gives, `none` for a missing directory. -/
def ConfigCache.init (flagsCacheDir : Bytes) (listing : Option (List text)) (c : ConfigCache) :
    ConfigCache × Except Status Unit :=
  if c.inited then (c, .ok ())
  else if flagsCacheDir = [] then ({ c with cacheDir := [] }, .ok ())
  else
    match listing with
    | none => ({ c with cacheDir := flagsCacheDir }, .ok ())
    | some files =>
      match loadFiles codec c.cacheMap files with
      | (m, .error err) => ({ c with cacheMap := m, cacheDir := flagsCacheDir }, .error err)
      | (m, .ok ()) => (⟨m, flagsCacheDir, true⟩, .ok ())

end Operations

/-- Whether a path names a file that lies directly in the directory. -/
def inDirectory (dir path : Bytes) : Bool :=
  (dir ++ [47]).isPrefixOf path && !(path.drop (dir.length + 1)).contains 47

/-- The files of the directory, which the iterator gives in any order. -/
def listDir {text : Type} (dir : Bytes) (files : Files text) : List text :=
  (Table.scan (inDirectory dir) files).map Prod.snd

inductive CacheEvent where
  | addConfig (config : ConfigInfo)
  | removeVersion (name : Bytes) (version : ModuleVersion)
  | removeVersions (name : Bytes) (versions : List ModuleVersion)
  | removeLessThan (name : Bytes) (version : ModuleVersion)
  | removeAll (name : Bytes)

def cacheStep {text : Type} (codec : JsonCodec text) (types : ConfigTypes)
    (p : CacheProcess text) : CacheEvent → CacheProcess text × Except Status Unit
  | .addConfig config => addConfig codec types config p
  | .removeVersion name version => removeConfigVersion types name version p
  | .removeVersions name versions => removeConfigVersions types name versions p
  | .removeLessThan name version => removeConfigLessThan types name version p
  | .removeAll name => removeCachedConfig types name p

/-! A small cache to run things on. -/

def plainCodec : JsonCodec ConfigInfo := ⟨id, .ok, fun _ => rfl⟩

def someTypes : ConfigTypes := ⟨0, 1, 2, 3, 4, 5, 6⟩

def emptyCache : CacheProcess ConfigInfo := ⟨⟨∅, [99], false⟩, ∅⟩

def versioned (major : Int) : ConfigInfo := { name := [97], version := some ⟨major, 2, 3⟩ }

end EA
