import EA.DiscoveryQuery
import EA.InstanceIndex
import EA.Lib.Lockstep
import EA.SnapshotRestore

namespace EA

open ByteString

variable {serialises : MetaValue → Bool}

/-- What the catalogue is for: namespaces, zones and users are found by their names.
Numbers only tell an object from those of the same name before it. -/
structure Directory where
  namespaces : Bytes → Option NameSpaceInfo := fun _ => none
  zones : Bytes → Bytes → Option ZoneInfo := fun _ _ => none
  users : Bytes → Option UserPrivilege := fun _ => none
  namespacesMade : Nat := 0
  zonesMade : Nat := 0

/-- A request is refused, or changes the directory once its record is stored. -/
inductive Verdict (τ : Type) where
  | refused (errmsg : String)
  | changed (record : Option MetaValue) (dbError : String) (next : τ)

namespace Verdict

variable {τ : Type}

def settle (serialises : MetaValue → Bool) (dbOk : Bool) (t : τ) : Verdict τ → τ × Reply
  | refused errmsg => (t, ⟨.inputParamError, errmsg⟩)
  | changed record dbError next =>
    if record.any fun v => !serialises v then (t, ⟨.parseToPbFail, "serializeToArray fail"⟩)
    else if !dbOk then (t, ⟨.internalError, dbError⟩)
    else (next, ⟨.success, "success"⟩)

end Verdict

namespace Directory

def setNamespace (d : Directory) (name : Bytes) (info : Option NameSpaceInfo) : Directory :=
  { d with namespaces := Function.update d.namespaces name info }

def setZone (d : Directory) (namespaceName zone : Bytes) (info : Option ZoneInfo) : Directory :=
  { d with
    zones := Function.update d.zones namespaceName
      (Function.update (d.zones namespaceName) zone info) }

def setUser (d : Directory) (name : Bytes) (user : Option UserPrivilege) : Directory :=
  { d with users := Function.update d.users name user }

def createNamespace (asked : NameSpaceInfo) (d : Directory) : Verdict Directory :=
  match d.namespaces asked.namespaceName with
  | some _ => .refused "namespace already existed"
  | none =>
    let info := { asked with namespaceId := d.namespacesMade + 1, version := 1 }
    .changed (some (.namespaceInfo info)) "write db fail"
      { d.setNamespace asked.namespaceName (some info) with namespacesMade := info.namespaceId }

open Classical in
noncomputable def dropNamespace (name : Bytes) (d : Directory) : Verdict Directory :=
  match d.namespaces name with
  | none => .refused "namespace not exist"
  | some _ =>
    if ∃ zone, (d.zones name zone).isSome then .refused "namespace has servlet"
    else .changed none "write db fail" (d.setNamespace name none)

def modifyNamespace (asked : NameSpaceInfo) (d : Directory) : Verdict Directory :=
  match d.namespaces asked.namespaceName with
  | none => .refused "namespace not exist"
  | some info =>
    let modified := modifiedNamespace asked info
    .changed (some (.namespaceInfo modified)) "write db fail"
      (d.setNamespace asked.namespaceName (some modified))

/-- A request on a zone is looked at only within an existing namespace. -/
def inNamespace (name : Bytes) (d : Directory) (go : NameSpaceInfo → Verdict Directory) :
    Verdict Directory :=
  match d.namespaces name with
  | none => .refused "namespace not exist"
  | some parent => go parent

def createZone (asked : ZoneInfo) (d : Directory) : Verdict Directory :=
  d.inNamespace asked.namespaceName fun parent =>
    match d.zones asked.namespaceName asked.zone with
    | some _ => .refused "zone already exist"
    | none =>
      let numbered :=
        { asked with zoneId := d.zonesMade + 1, namespaceId := parent.namespaceId }
      let info := { inheritedZone (some parent) numbered with version := 1 }
      .changed (some (.zoneInfo info)) "write db fail"
        { d.setZone asked.namespaceName asked.zone (some info) with zonesMade := d.zonesMade + 1 }

def dropZone (asked : ZoneInfo) (d : Directory) : Verdict Directory :=
  d.inNamespace asked.namespaceName fun _ =>
    match d.zones asked.namespaceName asked.zone with
    | none => .refused "zone not exist"
    | some _ => .changed none "write db fail" (d.setZone asked.namespaceName asked.zone none)

def modifyZone (asked : ZoneInfo) (d : Directory) : Verdict Directory :=
  d.inNamespace asked.namespaceName fun _ =>
    match d.zones asked.namespaceName asked.zone with
    | none => .refused "zone not exist"
    | some info =>
      let modified := modifiedZone asked info
      .changed (some (.zoneInfo modified)) "write db fail"
        (d.setZone asked.namespaceName asked.zone (some modified))

/-- The rights asked for, with the numbers of their zones. No servlet exists. -/
def resolve (asked : UserPrivilege) (d : Directory) : Option UserPrivilege := do
  let parent ← d.namespaces asked.namespaceName
  let zones ← asked.privilegeZone.mapM fun p =>
    (d.zones asked.namespaceName p.zone).map fun info => { p with zoneId := info.zoneId }
  if asked.privilegeServlet = [] then
    some { asked with namespaceId := parent.namespaceId, privilegeZone := zones }
  else none

def createUser (asked : UserPrivilege) (d : Directory) : Verdict Directory :=
  match d.users asked.username with
  | some _ => .refused "username has been repeated"
  | none =>
    match d.resolve asked with
    | none => .refused "request invalid"
    | some checked =>
      let user := { checked with version := 1 }
      .changed (some (.userPrivilege user)) "write db fail" (d.setUser asked.username (some user))

def dropUser (name : Bytes) (d : Directory) : Verdict Directory :=
  match d.users name with
  | none => .refused "username not exist"
  | some _ => .changed none "delete from db fail" (d.setUser name none)

def changeUser (change : UserPrivilege → UserPrivilege → UserPrivilege) (asked : UserPrivilege)
    (d : Directory) : Verdict Directory :=
  match d.users asked.username with
  | none => .refused "username not exist"
  | some user =>
    match d.resolve asked with
    | none => .refused "request invalid"
    | some checked =>
      .changed (some (.userPrivilege (change checked user))) "write db fail"
        (d.setUser asked.username (some (change checked user)))

/-- Requests on servlets, instances and configs are none of the directory's business. -/
noncomputable def verdict (request : DiscoveryManagerRequest) (d : Directory) :
    Verdict Directory :=
  match request.opType with
  | .opCreateNamespace => d.createNamespace request.namespaceInfo
  | .opDropNamespace => d.dropNamespace request.namespaceInfo.namespaceName
  | .opModifyNamespace => d.modifyNamespace request.namespaceInfo
  | .opCreateZone => d.createZone request.zoneInfo
  | .opDropZone => d.dropZone request.zoneInfo
  | .opModifyZone => d.modifyZone request.zoneInfo
  | .opCreateUser => d.createUser request.userPrivilege
  | .opDropUser => d.dropUser request.userPrivilege.username
  | .opAddPrivilege => d.changeUser grantedUser request.userPrivilege
  | .opDropPrivilege => d.changeUser revokedUser request.userPrivilege
  | _ => .refused "unknown request type"

end Directory

inductive Answer where
  | replied (reply : Reply)
  | loaded
  | loadFailed
deriving DecidableEq

/-- The replica takes the event and answers. A load that fails changes nothing. -/
def Replica.answer (serialises : MetaValue → Bool) (r : Replica) (e : DiscoveryEvent) :
    Replica × Answer :=
  match e with
  | .apply request env =>
    let out := onApply serialises request env r
    (out.1, .replied out.2)
  | .reload =>
    match loadSnapshot r.db r.memory with
    | some m => ({ r with memory := m }, .loaded)
    | none => (r, .loadFailed)
  | .restart =>
    match loadSnapshot r.db {} with
    | some m => ({ r with memory := m }, .loaded)
    | none => (r, .loadFailed)

/-- The directory knows nothing of databases and processes. -/
noncomputable def Directory.answer (serialises : MetaValue → Bool) (d : Directory)
    (e : DiscoveryEvent) : Directory × Answer :=
  match e with
  | .apply request env =>
    let out := (d.verdict request).settle serialises env.dbOk d
    (out.1, .replied out.2)
  | .reload => (d, .loaded)
  | .restart => (d, .loaded)

section Agrees

variable {σ τ : Type}

/-- A plan does what a verdict says, whether or not its write goes through. -/
inductive Executes (R : σ → τ → Prop) (t : τ) : Plan σ → Verdict τ → Prop
  | refused (errmsg : String) (memory : σ) (still : R memory t) :
      Executes R t (.refuse .inputParamError errmsg memory) (.refused errmsg)
  | changed (value : Option MetaValue) (batch : List BatchOp) (dbError : String)
      (touched memory : σ) (next : τ) (still : R touched t) (after : R memory next) :
      Executes R t (.write value batch dbError touched memory) (.changed value dbError next)

theorem Executes.run {R : σ → τ → Prop} {t : τ} {p : Plan σ} {v : Verdict τ} (h : Executes R t p v)
    (serialises : MetaValue → Bool) (dbOk : Bool) (db : MetaDb) :
    (p.run serialises dbOk db).2 = (v.settle serialises dbOk t).2 ∧
      R (p.run serialises dbOk db).1.2 (v.settle serialises dbOk t).1 := by
  cases h with
  | refused errmsg memory still => exact ⟨rfl, still⟩
  | changed value batch dbError touched memory next still after =>
    simp only [Plan.run, Verdict.settle]
    split
    next => exact ⟨rfl, still⟩
    next =>
      split
      next => exact ⟨rfl, still⟩
      next => exact ⟨rfl, after⟩

end Agrees

def NamespaceManager.find (m : NamespaceManager) : Bytes → Option NameSpaceInfo :=
  Registry.look m.idMap m.infoMap

def ZoneManager.find (m : ZoneManager) : Bytes → Option ZoneInfo := Registry.look m.idMap m.infoMap

/-- The managers hold what the directory says, under the keys of the code. -/
structure Agrees (m : Memory) (d : Directory) : Prop where
  namespaces : ∀ name, m.schema.namespaces.find name = d.namespaces name
  zones : ∀ namespaceName zone,
    m.schema.zones.find (makeZoneKey namespaceName zone) = d.zones namespaceName zone
  users : ∀ name : Bytes, m.users[name]? = d.users name
  namespacesMade : m.schema.namespaces.maxNamespaceId = d.namespacesMade
  zonesMade : m.schema.zones.maxZoneId = d.zonesMade

theorem agrees_empty : Agrees {} {} where
  namespaces _ := Registry.look_of_none (by simp)
  zones _ _ := Registry.look_of_none (by simp)
  users _ := by simp
  namespacesMade := rfl
  zonesMade := rfl

section Steps

variable {db : MetaDb} {m : Memory} {d : Directory}

/-- A name of the directory, with what the manager holds for it. -/
theorem Agrees.namespace_some (agrees : Agrees m d) (cat : Catalog db m.schema) {name : Bytes}
    {info : NameSpaceInfo} (found : d.namespaces name = some info) :
    info.namespaceName = name ∧ info.namespaceId ≠ 0 ∧
      m.schema.namespaces.idMap[name]? = some info.namespaceId ∧
      m.schema.namespaces.infoMap[info.namespaceId]? = some info := by
  rw [← agrees.namespaces] at found
  obtain ⟨here, rfl⟩ := cat.namespaces.registry.look_eq_some.mp found
  have positive := cat.namespaces.registry.positive _ _ here
  exact ⟨rfl, by omega, cat.namespaces.registry.id_of_name here, here⟩

theorem Agrees.namespace_none (agrees : Agrees m d) (cat : Catalog db m.schema) {name : Bytes}
    (missing : d.namespaces name = none) : m.schema.namespaces.idMap[name]? = none := by
  rw [← agrees.namespaces] at missing
  exact cat.namespaces.registry.look_eq_none.mp missing

theorem Agrees.zone_some (agrees : Agrees m d) (cat : Catalog db m.schema)
    {namespaceName zone : Bytes} {info : ZoneInfo} (found : d.zones namespaceName zone = some info) :
    info.zoneKey = makeZoneKey namespaceName zone ∧ info.zoneId ≠ 0 ∧
      m.schema.zones.idMap[makeZoneKey namespaceName zone]? = some info.zoneId ∧
      m.schema.zones.infoMap[info.zoneId]? = some info := by
  rw [← agrees.zones] at found
  obtain ⟨here, named⟩ := cat.zones.registry.look_eq_some.mp found
  have positive := cat.zones.registry.positive _ _ here
  refine ⟨named, by omega, ?_, here⟩
  rw [← named]
  exact cat.zones.registry.id_of_name here

theorem Agrees.zone_none (agrees : Agrees m d) (cat : Catalog db m.schema)
    {namespaceName zone : Bytes} (missing : d.zones namespaceName zone = none) :
    m.schema.zones.idMap[makeZoneKey namespaceName zone]? = none := by
  rw [← agrees.zones] at missing
  exact cat.zones.registry.look_eq_none.mp missing

theorem Agrees.setNamespace (agrees : Agrees m d) {s : Schema} {name : Bytes}
    {info : Option NameSpaceInfo}
    (namespaces : s.namespaces.find = Function.update m.schema.namespaces.find name info)
    (zones : s.zones = m.schema.zones) {made : Nat} (counter : s.namespaces.maxNamespaceId = made) :
    Agrees { m with schema := s } { d.setNamespace name info with namespacesMade := made } where
  namespaces other := by
    have old : m.schema.namespaces.find = d.namespaces := funext agrees.namespaces
    dsimp only
    rw [namespaces, old]
    rfl
  zones namespaceName zone := by
    dsimp only
    rw [zones]
    exact agrees.zones namespaceName zone
  users := agrees.users
  namespacesMade := counter
  zonesMade := by
    dsimp only
    rw [zones]
    exact agrees.zonesMade

theorem makeZoneKey_eq_iff {n z : Bytes} (plain : 0x01 ∉ n ∧ 0x01 ∉ z) {n' z' : Bytes} :
    makeZoneKey n' z' = makeZoneKey n z ↔ n' = n ∧ z' = z := by
  constructor
  · intro same
    rcases append_separator_eq_iff.mp same with eq | ⟨w, rfl, _⟩ | ⟨w, _, rfl⟩
    · exact eq
    · simp at plain
    · simp at plain
  · rintro ⟨rfl, rfl⟩
    rfl

/-- The key of a zone with plain names is the key of no other zone. -/
theorem Agrees.setZone (agrees : Agrees m d) {s : Schema} {namespaceName zone : Bytes}
    (plain : 0x01 ∉ namespaceName ∧ 0x01 ∉ zone) {info : Option ZoneInfo}
    (zones : s.zones.find = Function.update m.schema.zones.find (makeZoneKey namespaceName zone) info)
    (namespaces : s.namespaces.find = m.schema.namespaces.find ∧
      s.namespaces.maxNamespaceId = m.schema.namespaces.maxNamespaceId)
    {made : Nat} (counter : s.zones.maxZoneId = made) :
    Agrees { m with schema := s } { d.setZone namespaceName zone info with zonesMade := made } where
  namespaces name := by
    dsimp only
    rw [namespaces.1]
    exact agrees.namespaces name
  zones namespaceName' zone' := by
    dsimp only [Directory.setZone]
    rw [zones, Function.update_apply, Function.update_apply]
    by_cases sameName : namespaceName' = namespaceName
    · subst namespaceName'
      rw [if_pos rfl, Function.update_apply, ← agrees.zones]
      by_cases sameZone : zone' = zone
      · subst zone'
        rw [if_pos rfl, if_pos rfl]
      · have other : makeZoneKey namespaceName zone' ≠ makeZoneKey namespaceName zone :=
          fun eq => sameZone ((makeZoneKey_eq_iff plain).mp eq).2
        rw [if_neg other, if_neg sameZone]
    · have other : makeZoneKey namespaceName' zone' ≠ makeZoneKey namespaceName zone :=
        fun eq => sameName ((makeZoneKey_eq_iff plain).mp eq).1
      rw [if_neg other, if_neg sameName]
      exact agrees.zones namespaceName' zone'
  users := agrees.users
  namespacesMade := namespaces.2.trans agrees.namespacesMade
  zonesMade := counter

theorem Agrees.setUser (agrees : Agrees m d) (name : Bytes) (user : UserPrivilege) :
    Agrees { m with users := m.users.insert name user } (d.setUser name (some user)) where
  namespaces := agrees.namespaces
  zones := agrees.zones
  users other := by
    dsimp only [Directory.setUser]
    rw [Function.update_apply]
    by_cases eq : other = name
    · subst other
      rw [if_pos rfl, Table.lookup_insert_self]
    · rw [if_neg eq, Table.lookup_insert_ne _ _ (Ne.symm eq)]
      exact agrees.users other
  namespacesMade := agrees.namespacesMade
  zonesMade := agrees.zonesMade

theorem Agrees.eraseUser (agrees : Agrees m d) (name : Bytes) :
    Agrees { m with users := m.users.erase name } (d.setUser name none) where
  namespaces := agrees.namespaces
  zones := agrees.zones
  users other := by
    dsimp only [Directory.setUser]
    rw [Function.update_apply]
    by_cases eq : other = name
    · subst other
      rw [if_pos rfl, Table.lookup_erase_self]
    · rw [if_neg eq, Table.lookup_erase_ne _ (Ne.symm eq)]
      exact agrees.users other
  namespacesMade := agrees.namespacesMade
  zonesMade := agrees.zonesMade

variable (request : DiscoveryManagerRequest)

theorem createNamespace_follows (agrees : Agrees m d) (cat : Catalog db m.schema) :
    Executes (fun s => Agrees { m with schema := s }) d (createNamespace request m.schema)
      (d.createNamespace request.namespaceInfo) := by
  unfold createNamespace Directory.createNamespace
  dsimp only
  cases found : d.namespaces request.namespaceInfo.namespaceName with
  | some info =>
    obtain ⟨_, _, hid, _⟩ := agrees.namespace_some cat found
    rw [hid]
    exact .refused _ _ agrees
  | none =>
    rw [agrees.namespace_none cat found, agrees.namespacesMade]
    dsimp only
    refine .changed _ _ _ _ _ _ agrees ?_
    refine agrees.setNamespace ?_ (by rfl) (by rfl)
    exact cat.namespaces.registry.look_create (by rw [agrees.namespacesMade])

theorem modifyNamespace_follows (agrees : Agrees m d) (cat : Catalog db m.schema) :
    Executes (fun s => Agrees { m with schema := s }) d (modifyNamespace request m.schema)
      (d.modifyNamespace request.namespaceInfo) := by
  unfold modifyNamespace Directory.modifyNamespace
  dsimp only
  cases found : d.namespaces request.namespaceInfo.namespaceName with
  | none =>
    rw [agrees.namespace_none cat found]
    exact .refused _ _ agrees
  | some info =>
    obtain ⟨named, _, hid, here⟩ := agrees.namespace_some cat found
    rw [hid]
    dsimp only
    rw [Table.touch_of_lookup here, Table.getD_eq, here]
    let modified := modifiedNamespace request.namespaceInfo info
    have put : (m.schema.namespaces.setNamespaceInfo modified).find =
        Function.update m.schema.namespaces.find modified.namespaceName (some modified) :=
      cat.namespaces.registry.look_modify here rfl rfl
    have named' : modified.namespaceName = request.namespaceInfo.namespaceName := named
    rw [named'] at put
    refine .changed _ _ _ _ _ _ agrees ?_
    exact agrees.setNamespace put (by rfl) agrees.namespacesMade

/-- A namespace has zones in the sense of the code just when some zone is found below it. -/
theorem Agrees.has_zones_iff (agrees : Agrees m d) (cat : Catalog db m.schema)
    (owned : ZonesOwned m.schema) {name : Bytes} (plain : 0x01 ∉ name) {id : Nat}
    (hid : m.schema.namespaces.idMap[name]? = some id) :
    (m.schema.namespaces.zoneIds.members id).isEmpty = true ↔
      ¬ ∃ zone, (d.zones name zone).isSome := by
  rw [Index.isEmpty_members, not_exists]
  constructor
  · intro empty zone found
    obtain ⟨info, found⟩ := Option.isSome_iff_exists.mp found
    obtain ⟨named, _, _, here⟩ := agrees.zone_some cat found
    obtain ⟨sameName, _⟩ := makeZoneKey_inj (owned.plain _ info here) plain named
    have parent := owned.parent _ info here
    rw [sameName, hid] at parent
    exact empty info.zoneId ((owned.zoneIds _ _).mpr ⟨info, here, (Option.some.inj parent).symm⟩)
  · intro missing z has
    obtain ⟨info, here, rfl⟩ := (owned.zoneIds _ _).mp has
    have parent := owned.parent z info here
    obtain ⟨own, hown, named, _⟩ := cat.namespaces.registry.lookup parent
    have sameName : own.namespaceName = name := cat.namespaces.registry.name_eq hid hown
    have carried := cat.zones.registry.carries z info here
    have listed : m.schema.zones.find (makeZoneKey name info.zone) = some info := by
      refine cat.zones.registry.look_eq_some.mpr ⟨by rw [carried]; exact here, ?_⟩
      rw [ZoneInfo.zoneKey, ← named, sameName]
    rw [agrees.zones] at listed
    exact missing info.zone (by rw [listed]; rfl)

theorem dropNamespace_follows (agrees : Agrees m d) (cat : Catalog db m.schema)
    (owned : ZonesOwned m.schema) (plain : request.Plain) :
    Executes (fun s => Agrees { m with schema := s }) d (dropNamespace request m.schema)
      (d.dropNamespace request.namespaceInfo.namespaceName) := by
  unfold dropNamespace Directory.dropNamespace
  dsimp only
  cases found : d.namespaces request.namespaceInfo.namespaceName with
  | none =>
    rw [agrees.namespace_none cat found]
    exact .refused _ _ agrees
  | some info =>
    obtain ⟨_, _, hid, _⟩ := agrees.namespace_some cat found
    have zones := agrees.has_zones_iff cat owned plain.1 hid
    let touchedIds := m.schema.namespaces.touchZoneIds info.namespaceId
    have touched : Agrees { m with schema := { m.schema with namespaces := touchedIds } } d :=
      ⟨agrees.namespaces, agrees.zones, agrees.users, agrees.namespacesMade, agrees.zonesMade⟩
    have dropped : (touchedIds.eraseNamespaceInfo request.namespaceInfo.namespaceName).find =
        Function.update m.schema.namespaces.find request.namespaceInfo.namespaceName none := by
      rw [NamespaceManager.eraseNamespaceInfo_of_lookup (m := touchedIds) hid]
      exact cat.namespaces.registry.look_drop hid
    rw [hid]
    dsimp only
    by_cases below : ∃ zone, (d.zones request.namespaceInfo.namespaceName zone).isSome
    · have full : (m.schema.namespaces.zoneIds.members info.namespaceId).isEmpty = false := by
        simpa using fun empty => zones.mp empty below
      rw [full, if_pos below]
      exact .refused _ _ touched
    · rw [zones.mpr below, if_neg below]
      refine .changed _ _ _ _ _ _ touched ?_
      exact agrees.setNamespace dropped (by rfl) agrees.namespacesMade

theorem follows_inNamespace (agrees : Agrees m d) (cat : Catalog db m.schema) {name : Bytes}
    {p : Plan Schema} {go : NameSpaceInfo → Verdict Directory}
    (h : ∀ parent, d.namespaces name = some parent →
      m.schema.namespaces.getNamespaceId name = parent.namespaceId →
      Executes (fun s => Agrees { m with schema := s }) d p (go parent)) :
    Executes (fun s => Agrees { m with schema := s }) d
      (if m.schema.namespaces.getNamespaceId name = 0 then
        .refuse .inputParamError "namespace not exist" m.schema else p)
      (d.inNamespace name go) := by
  unfold Directory.inNamespace
  cases found : d.namespaces name with
  | none =>
    have zero : m.schema.namespaces.getNamespaceId name = 0 := by
      rw [NamespaceManager.getNamespaceId, agrees.namespace_none cat found]
      rfl
    rw [if_pos zero]
    exact .refused _ _ agrees
  | some parent =>
    obtain ⟨_, positive, hid, _⟩ := agrees.namespace_some cat found
    have number := NamespaceManager.getNamespaceId_of_lookup hid
    have exists_ : m.schema.namespaces.getNamespaceId name ≠ 0 := by
      rw [number]
      exact positive
    rw [if_neg exists_]
    exact h parent found number

theorem createZone_follows (agrees : Agrees m d) (cat : Catalog db m.schema)
    (plain : request.Plain) :
    Executes (fun s => Agrees { m with schema := s }) d (createZone request m.schema)
      (d.createZone request.zoneInfo) := by
  unfold createZone Directory.createZone
  dsimp only
  refine follows_inNamespace agrees cat fun parent hparent number => ?_
  obtain ⟨_, _, _, hinfo⟩ := agrees.namespace_some cat hparent
  cases found : d.zones request.zoneInfo.namespaceName request.zoneInfo.zone with
  | some info =>
    obtain ⟨_, _, hid, _⟩ := agrees.zone_some cat found
    rw [hid]
    exact .refused _ _ agrees
  | none =>
    rw [agrees.zone_none cat found, number, hinfo, agrees.zonesMade]
    let numbered : ZoneInfo := { request.zoneInfo with
      zoneId := d.zonesMade + 1, namespaceId := parent.namespaceId }
    let info : ZoneInfo := { inheritedZone (some parent) numbered with version := 1 }
    have created := cat.zones.registry.look_create (r := info) (by rw [agrees.zonesMade]; rfl)
    have put : (m.schema.zones.setZoneInfo info).find = Function.update m.schema.zones.find
        (makeZoneKey request.zoneInfo.namespaceName request.zoneInfo.zone) (some info) := created
    refine .changed _ _ _ _ _ _ agrees ?_
    exact agrees.setZone plain.2.1 put ⟨by rfl, by rfl⟩ (by rfl)

theorem modifyZone_follows (agrees : Agrees m d) (cat : Catalog db m.schema)
    (plain : request.Plain) :
    Executes (fun s => Agrees { m with schema := s }) d (modifyZone request m.schema)
      (d.modifyZone request.zoneInfo) := by
  unfold modifyZone Directory.modifyZone
  dsimp only
  refine follows_inNamespace agrees cat fun parent _ _ => ?_
  cases found : d.zones request.zoneInfo.namespaceName request.zoneInfo.zone with
  | none =>
    rw [agrees.zone_none cat found]
    exact .refused _ _ agrees
  | some info =>
    obtain ⟨named, _, hid, here⟩ := agrees.zone_some cat found
    let modified := modifiedZone request.zoneInfo info
    have put : (m.schema.zones.setZoneInfo modified).find =
        Function.update m.schema.zones.find modified.zoneKey (some modified) :=
      cat.zones.registry.look_modify here rfl rfl
    have named' : modified.zoneKey =
        makeZoneKey request.zoneInfo.namespaceName request.zoneInfo.zone := named
    rw [named'] at put
    rw [hid]
    dsimp only
    rw [Table.touch_of_lookup here, Table.getD_eq, here]
    refine .changed _ _ _ _ _ _ agrees ?_
    exact agrees.setZone plain.2.1 put ⟨by rfl, by rfl⟩ agrees.zonesMade

theorem dropZone_follows (agrees : Agrees m d) (cat : Catalog db m.schema)
    (noServlets : NoServlets db m.schema) (plain : request.Plain) :
    Executes (fun s => Agrees { m with schema := s }) d (dropZone request m.schema)
      (d.dropZone request.zoneInfo) := by
  unfold dropZone Directory.dropZone
  dsimp only
  refine follows_inNamespace agrees cat fun parent _ _ => ?_
  cases found : d.zones request.zoneInfo.namespaceName request.zoneInfo.zone with
  | none =>
    rw [agrees.zone_none cat found]
    exact .refused _ _ agrees
  | some info =>
    obtain ⟨_, _, hid, _⟩ := agrees.zone_some cat found
    have empty : (m.schema.zones.servletIds.members info.zoneId).isEmpty = true :=
      Index.isEmpty_members.mpr (noServlets.ids info.zoneId)
    let touchedIds := m.schema.zones.touchServletIds info.zoneId
    have touched : Agrees { m with schema := { m.schema with zones := touchedIds } } d :=
      ⟨agrees.namespaces, agrees.zones, agrees.users, agrees.namespacesMade, agrees.zonesMade⟩
    let zoneKey := makeZoneKey request.zoneInfo.namespaceName request.zoneInfo.zone
    have dropped : (touchedIds.eraseZoneInfo zoneKey).find =
        Function.update m.schema.zones.find zoneKey none := by
      rw [ZoneManager.eraseZoneInfo_of_lookup (m := touchedIds) hid]
      exact cat.zones.registry.look_drop hid
    rw [hid]
    dsimp only
    rw [empty]
    refine .changed _ _ _ _ _ _ touched ?_
    exact agrees.setZone plain.2.1 dropped ⟨by rfl, by rfl⟩ agrees.zonesMade

/-- Rights are resolved by name, and a right on a servlet cannot be. -/
theorem Agrees.resolve (agrees : Agrees m d) (cat : Catalog db m.schema)
    (none : m.schema.servlets.idMap = ∅) (asked : UserPrivilege) :
    checkAndGetForPrivilege m.schema asked = d.resolve asked := by
  have zone : ∀ p : PrivilegeZone, checkPrivilegeZone m.schema asked.namespaceName p =
      (d.zones asked.namespaceName p.zone).map fun info => { p with zoneId := info.zoneId } := by
    intro p
    unfold checkPrivilegeZone
    dsimp only
    cases found : d.zones asked.namespaceName p.zone with
    | none =>
      rw [ZoneManager.getZoneId, agrees.zone_none cat found]
      rfl
    | some info =>
      obtain ⟨_, positive, hid, _⟩ := agrees.zone_some cat found
      rw [ZoneManager.getZoneId_of_lookup hid, if_neg positive]
      rfl
  have servlet : ∀ p : PrivilegeServlet,
      checkPrivilegeServlet m.schema asked.namespaceName p = Option.none := by
    intro p
    unfold checkPrivilegeServlet
    dsimp only
    split
    next => rfl
    next => simp [ServletManager.getServletId, none]
  unfold checkAndGetForPrivilege Directory.resolve
  dsimp only
  cases found : d.namespaces asked.namespaceName with
  | none =>
    rw [NamespaceManager.getNamespaceId, agrees.namespace_none cat found]
    rfl
  | some parent =>
    obtain ⟨_, positive, hid, _⟩ := agrees.namespace_some cat found
    rw [NamespaceManager.getNamespaceId_of_lookup hid, if_neg positive, funext zone]
    cases asked.privilegeZone.mapM fun p : PrivilegeZone =>
        (d.zones asked.namespaceName p.zone).map fun info => { p with zoneId := info.zoneId } with
    | none => rfl
    | some zones =>
      cases servlets : asked.privilegeServlet with
      | nil => rfl
      | cons p rest => simp [List.mapM_cons, servlet p]

theorem createUser_follows (agrees : Agrees m d) (cat : Catalog db m.schema)
    (none : m.schema.servlets.idMap = ∅) :
    Executes (fun u => Agrees { m with users := u }) d (createUser request m.schema m.users)
      (d.createUser request.userPrivilege) := by
  unfold createUser Directory.createUser
  dsimp only
  rw [agrees.users, agrees.resolve cat none]
  cases d.users request.userPrivilege.username with
  | some _ => exact .refused _ _ agrees
  | none =>
    cases d.resolve request.userPrivilege with
    | none => exact .refused _ _ agrees
    | some _ => exact .changed _ _ _ _ _ _ agrees (agrees.setUser _ _)

theorem dropUser_follows (agrees : Agrees m d) :
    Executes (fun u => Agrees { m with users := u }) d (dropUser request m.users)
      (d.dropUser request.userPrivilege.username) := by
  unfold dropUser Directory.dropUser
  dsimp only
  rw [agrees.users]
  cases d.users request.userPrivilege.username with
  | none => exact .refused _ _ agrees
  | some _ => exact .changed _ _ _ _ _ _ agrees (agrees.eraseUser _)

theorem changePrivilege_follows (agrees : Agrees m d) (cat : Catalog db m.schema)
    (none : m.schema.servlets.idMap = ∅) (change : UserPrivilege → UserPrivilege → UserPrivilege) :
    Executes (fun u => Agrees { m with users := u }) d
      (changePrivilege change request m.schema m.users)
      (d.changeUser change request.userPrivilege) := by
  unfold changePrivilege Directory.changeUser
  dsimp only
  rw [agrees.users, agrees.resolve cat none]
  cases d.users request.userPrivilege.username with
  | none => exact .refused _ _ agrees
  | some _ =>
    cases d.resolve request.userPrivilege with
    | none => exact .refused _ _ agrees
    | some _ => exact .changed _ _ _ _ _ _ agrees (agrees.setUser _ _)

end Steps

end EA
