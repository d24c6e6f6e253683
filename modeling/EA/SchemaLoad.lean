import EA.Catalog
import EA.Lib.Replay

namespace EA

open ByteString

def SchemaRecord.load (s : Schema) : SchemaRecord → Schema
  | .ofNamespace _ info => { s with namespaces := s.namespaces.setNamespaceInfo info }
  | .ofZone _ info => { s with
      zones := s.zones.setZoneInfo info
      namespaces := s.namespaces.addZoneId info.namespaceId info.zoneId }
  | .ofServlet _ info => { s with
      servlets := s.servlets.setServletInfo info
      zones := s.zones.addServletId info.zoneId info.servletId }
  | .maxNamespaceId id => { s with namespaces := { s.namespaces with maxNamespaceId := id } }
  | .maxZoneId id => { s with zones := { s.zones with maxZoneId := id } }
  | .maxServletId id => { s with servlets := { s.servlets with maxServletId := id } }

/-- No record is taken for one of another kind, whatever the bytes of its number. -/
theorem loadSchemaRecord_entry (s : Schema) (r : SchemaRecord) :
    loadSchemaRecord s r.entry = some (r.load s) := by
  have raw : ∀ id, fromLe (rawId id) = id := fromLe_rawId
  cases r with
  | ofNamespace | ofZone | ofServlet => rfl
  | maxNamespaceId id =>
    have read : loadSchemaRecord s (SchemaRecord.maxNamespaceId id).entry =
        some (loadMaxIdSnapshot maxNamespaceIdKey (fromLe (rawId id)) s) := rfl
    rw [read, raw]
    rfl
  | maxZoneId id =>
    have read : loadSchemaRecord s (SchemaRecord.maxZoneId id).entry =
        some (loadMaxIdSnapshot maxZoneIdKey (fromLe (rawId id)) s) := rfl
    rw [read, raw]
    rfl
  | maxServletId id =>
    have read : loadSchemaRecord s (SchemaRecord.maxServletId id).entry =
        some (loadMaxIdSnapshot maxServletIdKey (fromLe (rawId id)) s) := rfl
    rw [read, raw]
    rfl

namespace SchemaRecord

theorem entry_injective : Function.Injective entry := by
  intro r r' h
  have manager := congrArg (fun e => owner e.1) h
  have value := congrArg Prod.snd h
  cases r with
  | ofNamespace id info =>
    cases r' with
    | ofNamespace id' info' =>
      cases constructNamespaceKey_injective (congrArg Prod.fst h)
      cases MetaValue.namespaceInfo.inj value
      rfl
    | _ => simp [entry] at value
  | ofZone id info =>
    cases r' with
    | ofZone id' info' =>
      cases constructZoneKey_injective (congrArg Prod.fst h)
      cases MetaValue.zoneInfo.inj value
      rfl
    | _ => simp [entry] at value
  | ofServlet id info =>
    cases r' with
    | ofServlet id' info' =>
      cases constructServletKey_injective (congrArg Prod.fst h)
      cases MetaValue.servletInfo.inj value
      rfl
    | _ => simp [entry] at value
  | maxNamespaceId id =>
    cases r' with
    | maxNamespaceId id' => rw [rawId_injective (MetaValue.raw.inj value)]
    | maxZoneId | maxServletId => simp [entry] at manager
    | _ => simp [entry] at value
  | maxZoneId id =>
    cases r' with
    | maxZoneId id' => rw [rawId_injective (MetaValue.raw.inj value)]
    | maxNamespaceId | maxServletId => simp [entry] at manager
    | _ => simp [entry] at value
  | maxServletId id =>
    cases r' with
    | maxServletId id' => rw [rawId_injective (MetaValue.raw.inj value)]
    | maxNamespaceId | maxZoneId => simp [entry] at manager
    | _ => simp [entry] at value

def namespaces (rs : List SchemaRecord) : List NameSpaceInfo :=
  rs.filterMap fun
    | .ofNamespace _ info => some info
    | _ => none

def zones (rs : List SchemaRecord) : List ZoneInfo :=
  rs.filterMap fun
    | .ofZone _ info => some info
    | _ => none

def servlets (rs : List SchemaRecord) : List ServletInfo :=
  rs.filterMap fun
    | .ofServlet _ info => some info
    | _ => none

def counters (tag : UInt8) (rs : List SchemaRecord) : List Nat :=
  rs.filterMap fun
    | .maxNamespaceId id => if tag = 0x02 then some id else none
    | .maxZoneId id => if tag = 0x09 then some id else none
    | .maxServletId id => if tag = 0x0A then some id else none
    | _ => none

end SchemaRecord

/-- The counter of the manager with this tag. -/
inductive CounterOf : UInt8 → (Nat → SchemaRecord) → Prop
  | namespaces : CounterOf 0x02 .maxNamespaceId
  | zones : CounterOf 0x09 .maxZoneId
  | servlets : CounterOf 0x0A .maxServletId

/-- The counter after all stored ones were read. -/
def lastCounter (bound : Nat) (ids : List Nat) : Nat := ids.foldl (fun _ id => id) bound

theorem lastCounter_eq {ids : List Nat} {bound start : Nat} (agree : ∀ id ∈ ids, id = bound)
    (stored : ids ≠ [] ∨ start = bound) : lastCounter start ids = bound := by
  induction ids generalizing start with
  | nil => simpa [lastCounter] using stored
  | cons id ids ih =>
    have eq := agree id (by simp)
    exact ih (fun id' h => agree id' (List.mem_cons_of_mem _ h)) (Or.inr eq)

/-- A counter is read back, also one that was never written. -/
theorem lastCounter_of_counted {counterKey : Bytes} {db : MetaDb} {bound : Nat}
    (counted : db[counterKey]? = some (.raw (rawId bound)) ∨ (db[counterKey]? = none ∧ bound = 0))
    {ids : List Nat} (listed : ∀ id, id ∈ ids ↔ db[counterKey]? = some (.raw (rawId id)))
    {start : Nat} (begins : start = bound ∨ start = 0) : lastCounter start ids = bound := by
  apply lastCounter_eq
  · intro id hid
    have stored := (listed id).mp hid
    rcases counted with here | ⟨none, _⟩
    · rw [here] at stored
      exact (rawId_injective (MetaValue.raw.inj (Option.some.inj stored))).symm
    · rw [none] at stored
      simp at stored
  · rcases counted with here | ⟨_, zero⟩
    · left
      exact List.ne_nil_of_mem ((listed bound).mpr here)
    · right
      omega

/-- What the schema managers hold after a list of records was read. -/
def loadedSchema (rs : List SchemaRecord) (s : Schema) : Schema where
  namespaces :=
    { maxNamespaceId := lastCounter s.namespaces.maxNamespaceId (SchemaRecord.counters 0x02 rs)
      idMap := Table.insertAll NameSpaceInfo.namespaceName NameSpaceInfo.namespaceId
        (SchemaRecord.namespaces rs) s.namespaces.idMap
      infoMap := Table.insertAll NameSpaceInfo.namespaceId id (SchemaRecord.namespaces rs)
        s.namespaces.infoMap
      zoneIds := Index.addAll ZoneInfo.namespaceId ZoneInfo.zoneId (SchemaRecord.zones rs)
        s.namespaces.zoneIds }
  zones :=
    { maxZoneId := lastCounter s.zones.maxZoneId (SchemaRecord.counters 0x09 rs)
      idMap := Table.insertAll ZoneInfo.zoneKey ZoneInfo.zoneId (SchemaRecord.zones rs)
        s.zones.idMap
      infoMap := Table.insertAll ZoneInfo.zoneId id (SchemaRecord.zones rs) s.zones.infoMap
      servletIds := Index.addAll ServletInfo.zoneId ServletInfo.servletId
        (SchemaRecord.servlets rs) s.zones.servletIds }
  servlets :=
    { maxServletId := lastCounter s.servlets.maxServletId (SchemaRecord.counters 0x0A rs)
      idMap := Table.insertAll ServletInfo.servletKey ServletInfo.servletId
        (SchemaRecord.servlets rs) s.servlets.idMap
      infoMap := Table.insertAll ServletInfo.servletId id (SchemaRecord.servlets rs)
        s.servlets.infoMap }

theorem foldl_load (rs : List SchemaRecord) (s : Schema) :
    rs.foldl SchemaRecord.load s = loadedSchema rs s := by
  induction rs generalizing s with
  | nil => rfl
  | cons r rs ih =>
    rw [List.foldl_cons, ih]
    cases r <;> rfl

abbrev Lists (rs : List SchemaRecord) (db : MetaDb) : Prop :=
  Replay.Lists SchemaRecord.entry (fun key => schemaIdentify.isPrefixOf key) rs db

theorem loadSchema_eq {db : MetaDb} (recorded : SchemaRecorded db) (s : Schema) :
    ∃ rs, Lists rs db ∧ loadSchema db s = some (loadedSchema rs s.clear) := by
  obtain ⟨rs, lists, loaded⟩ := Replay.scan_foldlM loadSchemaRecord_entry recorded s.clear
  refine ⟨rs, lists, ?_⟩
  rw [foldl_load] at loaded
  exact loaded

section Lists

variable {rs : List SchemaRecord} {db : MetaDb}

theorem mem_records (h : Lists rs db) {r : SchemaRecord} :
    r ∈ rs ↔ db[r.entry.1]? = some r.entry.2 :=
  h.mem_iff SchemaRecord.entry_injective r.schemaIdentify_isPrefixOf

theorem mem_namespaces (h : Lists rs db) {info : NameSpaceInfo} :
    info ∈ SchemaRecord.namespaces rs ↔
      ∃ id, db[constructNamespaceKey id]? = some (.namespaceInfo info) := by
  rw [SchemaRecord.namespaces, List.mem_filterMap]
  constructor
  · intro ⟨r, hr, eq⟩
    cases r with
    | ofNamespace id info' =>
      cases Option.some.inj eq
      exact ⟨id, (mem_records h).mp hr⟩
    | _ => simp at eq
  · intro ⟨id, stored⟩
    exact ⟨.ofNamespace id info, (mem_records h).mpr stored, rfl⟩

theorem mem_zones (h : Lists rs db) {info : ZoneInfo} :
    info ∈ SchemaRecord.zones rs ↔ ∃ id, db[constructZoneKey id]? = some (.zoneInfo info) := by
  rw [SchemaRecord.zones, List.mem_filterMap]
  constructor
  · intro ⟨r, hr, eq⟩
    cases r with
    | ofZone id info' =>
      cases Option.some.inj eq
      exact ⟨id, (mem_records h).mp hr⟩
    | _ => simp at eq
  · intro ⟨id, stored⟩
    exact ⟨.ofZone id info, (mem_records h).mpr stored, rfl⟩

theorem mem_servlets (h : Lists rs db) {info : ServletInfo} :
    info ∈ SchemaRecord.servlets rs ↔
      ∃ id, db[constructServletKey id]? = some (.servletInfo info) := by
  rw [SchemaRecord.servlets, List.mem_filterMap]
  constructor
  · intro ⟨r, hr, eq⟩
    cases r with
    | ofServlet id info' =>
      cases Option.some.inj eq
      exact ⟨id, (mem_records h).mp hr⟩
    | _ => simp at eq
  · intro ⟨id, stored⟩
    exact ⟨.ofServlet id info, (mem_records h).mpr stored, rfl⟩

theorem mem_counters (h : Lists rs db) {tag : UInt8} {counter : Nat → SchemaRecord}
    (own : CounterOf tag counter) {id : Nat} :
    id ∈ SchemaRecord.counters tag rs ↔
      db[(counter id).entry.1]? = some (counter id).entry.2 := by
  rw [SchemaRecord.counters, List.mem_filterMap, ← mem_records h]
  constructor
  · intro ⟨r, hr, eq⟩
    cases own <;> cases r <;> simp_all
  · intro hr
    refine ⟨counter id, hr, ?_⟩
    cases own <;> rfl

end Lists

section Rebuild

variable {ρ : Type} {K : Nat → Bytes} {V : ρ → MetaValue} {counterKey : Bytes}
  {nameOf : ρ → Bytes} {idOf : ρ → Nat} {db : MetaDb} {idMap : Table Bytes Nat}
  {infoMap : Table Nat ρ} {bound : Nat}

/-- The records of a manager are those that the database holds under its keys. -/
theorem Kept.exact (h : Kept K V counterKey nameOf idOf db idMap infoMap bound)
    (valued : Function.Injective V) {infos : List ρ}
    (listed : ∀ r, r ∈ infos ↔ ∃ id, db[K id]? = some (V r)) (r : ρ) :
    r ∈ infos ↔ infoMap[idOf r]? = some r := by
  rw [listed]
  constructor
  · intro ⟨id, stored⟩
    obtain ⟨r', found, eq⟩ := h.mirror.lookup_table stored
    cases valued eq
    rw [h.registry.carries id _ found]
    exact found
  · intro found
    exact ⟨idOf r, h.mirror.lookup_store found⟩

theorem Kept.lastCounter (h : Kept K V counterKey nameOf idOf db idMap infoMap bound)
    {ids : List Nat} (listed : ∀ id, id ∈ ids ↔ db[counterKey]? = some (.raw (rawId id)))
    {start : Nat} (begins : start = bound ∨ start = 0) : EA.lastCounter start ids = bound :=
  lastCounter_of_counted h.counted listed begins

end Rebuild

/-- A schema with the same namespaces and zones, and with the zones of each
namespace as their infos say. -/
structure SameCatalog (s s' : Schema) : Prop where
  maxNamespaceId : s'.namespaces.maxNamespaceId = s.namespaces.maxNamespaceId
  namespaceIds : s'.namespaces.idMap = s.namespaces.idMap
  namespaceInfos : s'.namespaces.infoMap = s.namespaces.infoMap
  maxZoneId : s'.zones.maxZoneId = s.zones.maxZoneId
  zoneNames : s'.zones.idMap = s.zones.idMap
  zoneInfos : s'.zones.infoMap = s.zones.infoMap
  zoneIds : Index.Exact ZoneInfo.namespaceId s'.namespaces.zoneIds s.zones.infoMap

theorem counter_starts {s s₀ : Schema} (start : s₀ = s ∨ s₀ = {}) :
    (s₀.clear.namespaces.maxNamespaceId = s.namespaces.maxNamespaceId ∨
        s₀.clear.namespaces.maxNamespaceId = 0) ∧
      (s₀.clear.zones.maxZoneId = s.zones.maxZoneId ∨ s₀.clear.zones.maxZoneId = 0) ∧
      (s₀.clear.servlets.maxServletId = s.servlets.maxServletId ∨
        s₀.clear.servlets.maxServletId = 0) := by
  rcases start with rfl | rfl
  · exact ⟨Or.inl rfl, Or.inl rfl, Or.inl rfl⟩
  · exact ⟨Or.inr rfl, Or.inr rfl, Or.inr rfl⟩

theorem Catalog.loaded {db : MetaDb} {s s₀ : Schema} (h : Catalog db s)
    (start : s₀ = s ∨ s₀ = {}) {rs : List SchemaRecord} (lists : Lists rs db) :
    SameCatalog s (loadedSchema rs s₀.clear) := by
  have namespaces := h.namespaces.exact (fun _ _ eq => MetaValue.namespaceInfo.inj eq)
    fun _ => mem_namespaces lists
  have zones := h.zones.exact (fun _ _ eq => MetaValue.zoneInfo.inj eq) fun _ => mem_zones lists
  obtain ⟨startNamespaces, startZones, _⟩ := counter_starts start
  constructor
  case maxNamespaceId =>
    exact h.namespaces.lastCounter (fun _ => mem_counters lists .namespaces) startNamespaces
  case namespaceIds => exact h.namespaces.registry.rebuild_idMap namespaces
  case namespaceInfos => exact h.namespaces.registry.rebuild_infoMap namespaces
  case maxZoneId => exact h.zones.lastCounter (fun _ => mem_counters lists .zones) startZones
  case zoneNames => exact h.zones.registry.rebuild_idMap zones
  case zoneInfos => exact h.zones.registry.rebuild_infoMap zones
  case zoneIds => exact Index.exact_addAll zones h.zones.registry.carries

/-- The reload gives the catalogue back. -/
theorem Catalog.reload {db : MetaDb} {s s₀ s' : Schema} (h : Catalog db s)
    (start : s₀ = s ∨ s₀ = {}) (load : loadSchema db s₀ = some s') :
    Catalog db s' ∧ SameCatalog s s' := by
  obtain ⟨rs, lists, loaded⟩ := loadSchema_eq h.recorded s₀
  have same := h.loaded start lists
  rw [loaded] at load
  cases Option.some.inj load
  refine ⟨⟨h.recorded, ?_, ?_⟩, same⟩
  · rw [NamespaceManager.Kept, same.namespaceIds, same.namespaceInfos, same.maxNamespaceId]
    exact h.namespaces
  · rw [ZoneManager.Kept, same.zoneNames, same.zoneInfos, same.maxZoneId]
    exact h.zones

theorem ZonesOwned.reload {s s' : Schema} (h : ZonesOwned s) (same : SameCatalog s s') :
    ZonesOwned s' where
  plain := by
    rw [same.zoneInfos]
    exact h.plain
  parent := by
    rw [same.zoneInfos, same.namespaceIds]
    exact h.parent
  zoneIds := by
    rw [same.zoneInfos]
    exact same.zoneIds

end EA
