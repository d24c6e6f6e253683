import EA.DiscoveryRuns
import EA.Lib.Mirror
import EA.Lib.Registry

namespace EA

open ByteString

def ZoneInfo.zoneKey (info : ZoneInfo) : Bytes := makeZoneKey info.namespaceName info.zone

/-- The manager that a schema record belongs to, named by its tag. -/
def owner (key : Bytes) : Option UInt8 :=
  if key = constructMaxNamespaceIdKey then some 0x02
  else if key = constructMaxZoneIdKey then some 0x09
  else if key = constructMaxServletIdKey then some 0x0A
  else key[1]?

theorem owner_of_tag {tag : UInt8} {rest : Bytes} (ne : tag ≠ 0x01) :
    owner (0x01 :: tag :: rest) = some tag := by
  have other : ∀ suffix : Bytes, 0x01 :: tag :: rest ≠ 0x01 :: 0x01 :: suffix := by
    intro suffix eq
    exact ne (List.cons.inj (List.cons.inj eq).2).1
  have namespaces : 0x01 :: tag :: rest ≠ constructMaxNamespaceIdKey := other _
  have zones : 0x01 :: tag :: rest ≠ constructMaxZoneIdKey := other _
  have servlets : 0x01 :: tag :: rest ≠ constructMaxServletIdKey := other _
  rw [owner, if_neg namespaces, if_neg zones, if_neg servlets]
  rfl

@[simp] theorem owner_namespaceKey (id : Nat) : owner (constructNamespaceKey id) = some 0x02 :=
  owner_of_tag (by decide)

@[simp] theorem owner_zoneKey (id : Nat) : owner (constructZoneKey id) = some 0x09 :=
  owner_of_tag (by decide)

@[simp] theorem owner_servletKey (id : Nat) : owner (constructServletKey id) = some 0x0A :=
  owner_of_tag (by decide)

@[simp] theorem owner_maxNamespaceIdKey : owner constructMaxNamespaceIdKey = some 0x02 := by decide

@[simp] theorem owner_maxZoneIdKey : owner constructMaxZoneIdKey = some 0x09 := by decide

@[simp] theorem owner_maxServletIdKey : owner constructMaxServletIdKey = some 0x0A := by decide

set_option linter.unusedSectionVars false

section Kept

variable {κ ρ : Type} [Ord κ] [Std.TransOrd κ] [Std.LawfulEqOrd κ]

/-- The keys of one manager: a record for each number, and the counter. -/
structure Keyspace (K : Nat → Bytes) (counterKey : Bytes) (tag : UInt8) : Prop where
  injective : Function.Injective K
  tagged : ∀ id, K id = 0x01 :: tag :: rawId id
  owned : ∀ id, owner (K id) = some tag
  counter : owner counterKey = some tag
  apart : ∀ id, K id ≠ counterKey

/-- What a manager keeps of its records: the maps agree, the database mirrors
them, and the stored counter is the one in memory (or was never written). -/
structure Kept (K : Nat → Bytes) (V : ρ → MetaValue) (counterKey : Bytes) (nameOf : ρ → κ)
    (idOf : ρ → Nat) (db : MetaDb) (idMap : Table κ Nat) (infoMap : Table Nat ρ) (bound : Nat) :
    Prop where
  registry : Registry nameOf idOf idMap infoMap bound
  mirror : Mirror K V infoMap db
  counted : db[counterKey]? = some (.raw (rawId bound)) ∨ (db[counterKey]? = none ∧ bound = 0)

namespace Kept

variable {K : Nat → Bytes} {V : ρ → MetaValue} {counterKey : Bytes} {tag : UInt8}
  {nameOf : ρ → κ} {idOf : ρ → Nat} {db db' : MetaDb} {idMap : Table κ Nat}
  {infoMap : Table Nat ρ} {bound : Nat}

theorem empty (K : Nat → Bytes) (V : ρ → MetaValue) (counterKey : Bytes) (nameOf : ρ → κ)
    (idOf : ρ → Nat) : Kept K V counterKey nameOf idOf ∅ ∅ ∅ 0 where
  registry := .empty 0
  mirror := .empty
  counted := by simp

theorem frame (h : Kept K V counterKey nameOf idOf db idMap infoMap bound)
    (records : ∀ id, db'[K id]? = db[K id]?) (counter : db'[counterKey]? = db[counterKey]?) :
    Kept K V counterKey nameOf idOf db' idMap infoMap bound where
  registry := h.registry
  mirror := h.mirror.frame records
  counted := by
    rw [counter]
    exact h.counted

theorem batch (h : Kept K V counterKey nameOf idOf db idMap infoMap bound)
    (keys : Keyspace K counterKey tag) {ops : List BatchOp}
    (foreign : ∀ op ∈ ops, owner op.1 ≠ some tag) :
    Kept K V counterKey nameOf idOf (ops.foldl BatchOp.apply db) idMap infoMap bound := by
  have other : ∀ key, owner key = some tag → ∀ op ∈ ops, op.1 ≠ key := by
    rintro _ own op hop rfl
    exact foreign op hop own
  exact h.frame (fun id => lookup_batch (other _ (keys.owned id)) db)
    (lookup_batch (other _ keys.counter) db)

theorem create (h : Kept K V counterKey nameOf idOf db idMap infoMap bound)
    (keys : Keyspace K counterKey tag) {r : ρ} (absent : idMap[nameOf r]? = none)
    (number : idOf r = bound + 1) :
    Kept K V counterKey nameOf idOf
      ([(K (idOf r), some (V r)), (counterKey, some (.raw (rawId (idOf r))))].foldl
        BatchOp.apply db)
      (idMap.insert (nameOf r) (idOf r)) (infoMap.insert (idOf r) r) (idOf r) where
  registry := by
    have created := h.registry.create absent number
    rwa [← number] at created
  mirror := (h.mirror.insert keys.injective (idOf r) r).frame fun id =>
    Table.lookup_insert_ne _ _ (keys.apart id).symm
  counted := Or.inl (Table.lookup_insert_self ..)

theorem drop (h : Kept K V counterKey nameOf idOf db idMap infoMap bound)
    (keys : Keyspace K counterKey tag) {name : κ} {id : Nat} (found : idMap[name]? = some id) :
    Kept K V counterKey nameOf idOf ([(K id, none)].foldl BatchOp.apply db)
      (idMap.erase name) (infoMap.erase id) bound where
  registry := h.registry.drop found
  mirror := h.mirror.erase keys.injective id
  counted := by
    have same : ([(K id, none)].foldl BatchOp.apply db)[counterKey]? = db[counterKey]? :=
      Table.lookup_erase_ne db (keys.apart id)
    rw [same]
    exact h.counted

theorem modify (h : Kept K V counterKey nameOf idOf db idMap infoMap bound)
    (keys : Keyspace K counterKey tag) {id : Nat} {old r : ρ} (found : infoMap[id]? = some old)
    (sameName : nameOf r = nameOf old) (sameId : idOf r = idOf old) :
    Kept K V counterKey nameOf idOf ([(K id, some (V r))].foldl BatchOp.apply db)
      (idMap.insert (nameOf r) (idOf r)) (infoMap.insert (idOf r) r) bound where
  registry := h.registry.modify found sameName sameId
  mirror := by
    have eq : idOf r = id := sameId.trans (h.registry.carries id old found)
    rw [eq]
    exact h.mirror.insert keys.injective id r
  counted := by
    have same : ([(K id, some (V r))].foldl BatchOp.apply db)[counterKey]? = db[counterKey]? :=
      Table.lookup_insert_ne db _ (keys.apart id)
    rw [same]
    exact h.counted

end Kept

end Kept

theorem namespaceKeyspace : Keyspace constructNamespaceKey constructMaxNamespaceIdKey 0x02 where
  injective := constructNamespaceKey_injective
  tagged _ := rfl
  owned := owner_namespaceKey
  counter := owner_maxNamespaceIdKey
  apart _ eq := absurd (List.cons.inj (List.cons.inj eq).2).1 (by decide)

theorem zoneKeyspace : Keyspace constructZoneKey constructMaxZoneIdKey 0x09 where
  injective := constructZoneKey_injective
  tagged _ := rfl
  owned := owner_zoneKey
  counter := owner_maxZoneIdKey
  apart _ eq := absurd (List.cons.inj (List.cons.inj eq).2).1 (by decide)

theorem servletKeyspace : Keyspace constructServletKey constructMaxServletIdKey 0x0A where
  injective := constructServletKey_injective
  tagged _ := rfl
  owned := owner_servletKey
  counter := owner_maxServletIdKey
  apart _ eq := absurd (List.cons.inj (List.cons.inj eq).2).1 (by decide)

abbrev NamespaceManager.Kept (db : MetaDb) (m : NamespaceManager) : Prop :=
  EA.Kept constructNamespaceKey MetaValue.namespaceInfo constructMaxNamespaceIdKey
    NameSpaceInfo.namespaceName NameSpaceInfo.namespaceId db m.idMap m.infoMap m.maxNamespaceId

abbrev ZoneManager.Kept (db : MetaDb) (m : ZoneManager) : Prop :=
  EA.Kept constructZoneKey MetaValue.zoneInfo constructMaxZoneIdKey
    ZoneInfo.zoneKey ZoneInfo.zoneId db m.idMap m.infoMap m.maxZoneId

abbrev ServletManager.Kept (db : MetaDb) (m : ServletManager) : Prop :=
  EA.Kept constructServletKey MetaValue.servletInfo constructMaxServletIdKey
    ServletInfo.servletKey ServletInfo.servletId db m.idMap m.infoMap m.maxServletId

/-- Every schema record of the database is one that the managers write. -/
def SchemaRecorded (db : MetaDb) : Prop :=
  ∀ key value, schemaIdentify.isPrefixOf key = true → db[key]? = some value →
    ∃ r : SchemaRecord, r.entry = (key, value)

theorem SchemaRecorded.batch {ops : List BatchOp}
    (writes : ∀ op ∈ ops, ∃ r : SchemaRecord, r.Writes op) {db : MetaDb} (h : SchemaRecorded db) :
    SchemaRecorded (ops.foldl BatchOp.apply db) := by
  induction ops generalizing db with
  | nil => exact h
  | cons op ops ih =>
    refine ih (fun op' hop => writes op' (List.mem_cons_of_mem _ hop)) ?_
    intro key value here hv
    obtain ⟨r, rfl | rfl⟩ := writes op (by simp)
    · rcases Table.lookup_insert_some hv with ⟨rfl, rfl⟩ | ⟨_, old⟩
      · exact ⟨r, rfl⟩
      · exact h key value here old
    · exact h key value here (Table.lookup_erase_some hv).2

/-- The namespaces and the zones of a schema with their records. -/
structure Catalog (db : MetaDb) (s : Schema) : Prop where
  recorded : SchemaRecorded db
  namespaces : s.namespaces.Kept db
  zones : s.zones.Kept db

theorem catalog_empty : Catalog ∅ {} where
  recorded := by
    intro key value _ h
    simp at h
  namespaces := .empty ..
  zones := .empty ..

theorem Catalog.frame {db db' : MetaDb} {s : Schema}
    (same : SameRecords schemaIdentify db db') (h : Catalog db s) : Catalog db' s where
  recorded := by
    intro key value here hv
    exact h.recorded key value here ((same key here).symm.trans hv)
  namespaces := h.namespaces.frame (fun _ => same _ rfl) (same _ rfl)
  zones := h.zones.frame (fun _ => same _ rfl) (same _ rfl)

theorem Catalog.getD_namespace {db : MetaDb} {s : Schema} (h : Catalog db s) {name : Bytes}
    {id : Nat} {old : NameSpaceInfo} (found : s.namespaces.idMap[name]? = some id)
    (read : s.namespaces.infoMap.getD id default = old) : s.namespaces.infoMap[id]? = some old := by
  obtain ⟨info, hinfo, _⟩ := h.namespaces.registry.lookup found
  rw [Table.getD_eq, hinfo] at read
  exact hinfo.trans (congrArg some read)

theorem Catalog.getD_zone {db : MetaDb} {s : Schema} (h : Catalog db s) {name : Bytes}
    {id : Nat} {old : ZoneInfo} (found : s.zones.idMap[name]? = some id)
    (read : s.zones.infoMap.getD id default = old) : s.zones.infoMap[id]? = some old := by
  obtain ⟨info, hinfo, _⟩ := h.zones.registry.lookup found
  rw [Table.getD_eq, hinfo] at read
  exact hinfo.trans (congrArg some read)

theorem catalog_step {request : DiscoveryManagerRequest} {db : MetaDb} {s : Schema}
    {p : Plan Schema} (h : Catalog db s) (step : SchemaStep request s p) :
    p.Preserves Catalog db := by
  have recorded := h.recorded.batch step.writes
  cases step with
  | refused => exact h
  | namespaceHasZones => exact ⟨h.recorded, h.namespaces, h.zones⟩
  | zoneHasServlets => exact ⟨h.recorded, h.namespaces, h.zones⟩
  | createNamespace info named absent number =>
    refine ⟨h, recorded, ?_, ?_⟩
    · exact h.namespaces.create namespaceKeyspace absent number
    · exact h.zones.batch zoneKeyspace (by simp)
  | dropNamespace id found empty =>
    refine ⟨⟨h.recorded, h.namespaces, h.zones⟩, recorded, ?_, ?_⟩
    · have erased := NamespaceManager.eraseNamespaceInfo_of_lookup
        (m := s.namespaces.touchZoneIds id) found
      rw [erased]
      exact h.namespaces.drop namespaceKeyspace found
    · exact h.zones.batch zoneKeyspace (by simp)
  | modifyNamespace id old info found read sameName sameId =>
    have here := h.getD_namespace found read
    rw [NamespaceManager.touchInfo_of_lookup here]
    refine ⟨h, recorded, ?_, ?_⟩
    · exact h.namespaces.modify namespaceKeyspace here sameName sameId
    · exact h.zones.batch zoneKeyspace (by simp)
  | createZone info named parent absent number =>
    refine ⟨h, recorded, ?_, ?_⟩
    · exact h.namespaces.batch namespaceKeyspace (by simp)
    · exact h.zones.create zoneKeyspace absent number
  | dropZone namespaceId id parent found empty =>
    refine ⟨⟨h.recorded, h.namespaces, h.zones⟩, recorded, ?_, ?_⟩
    · exact h.namespaces.batch namespaceKeyspace (by simp)
    · have erased := ZoneManager.eraseZoneInfo_of_lookup (m := s.zones.touchServletIds id) found
      rw [erased]
      exact h.zones.drop zoneKeyspace found
  | modifyZone id old info found read sameNames sameIds =>
    have here := h.getD_zone found read
    have sameKey : info.zoneKey = old.zoneKey := by
      rw [ZoneInfo.zoneKey, sameNames.1, sameNames.2, ZoneInfo.zoneKey]
    rw [ZoneManager.touchInfo_of_lookup here]
    refine ⟨h, recorded, ?_, ?_⟩
    · exact h.namespaces.batch namespaceKeyspace (by simp)
    · exact h.zones.modify zoneKeyspace here sameKey sameIds.1
  | createServlet =>
    refine ⟨h, recorded, ?_, ?_⟩
    · exact h.namespaces.batch namespaceKeyspace (by simp)
    · exact h.zones.batch zoneKeyspace (by simp)
  | dropServlet =>
    refine ⟨⟨h.recorded, h.namespaces, h.zones⟩, recorded, ?_, ?_⟩
    · exact h.namespaces.batch namespaceKeyspace (by simp)
    · exact h.zones.batch zoneKeyspace (by simp)
  | modifyServlet =>
    refine ⟨⟨h.recorded, h.namespaces, h.zones⟩, recorded, ?_, ?_⟩
    · exact h.namespaces.batch namespaceKeyspace (by simp)
    · exact h.zones.batch zoneKeyspace (by simp)

/-- Zones and namespaces agree on which zone lies in which namespace. -/
structure ZonesOwned (s : Schema) : Prop where
  plain : ∀ (z : Nat) (info : ZoneInfo), s.zones.infoMap[z]? = some info →
    0x01 ∉ info.namespaceName
  parent : ∀ (z : Nat) (info : ZoneInfo), s.zones.infoMap[z]? = some info →
    s.namespaces.idMap[info.namespaceName]? = some info.namespaceId
  zoneIds : Index.Exact ZoneInfo.namespaceId s.namespaces.zoneIds s.zones.infoMap

theorem zonesOwned_empty : ZonesOwned {} where
  plain := by simp
  parent := by simp
  zoneIds := Index.exact_empty _

/-- Only requests on namespaces and zones can change who owns what. -/
theorem ZonesOwned.of_same {s s' : Schema} (h : ZonesOwned s)
    (infoMap : s'.zones.infoMap = s.zones.infoMap)
    (idMap : s'.namespaces.idMap = s.namespaces.idMap)
    (zoneIds : ∀ n z, s'.namespaces.zoneIds.Has n z ↔ s.namespaces.zoneIds.Has n z) :
    ZonesOwned s' where
  plain := by
    rw [infoMap]
    exact h.plain
  parent := by
    rw [infoMap, idMap]
    exact h.parent
  zoneIds := by
    rw [infoMap]
    exact h.zoneIds.of_has_iff zoneIds

theorem ZonesOwned.createNamespace {s : Schema} (h : ZonesOwned s) {info : NameSpaceInfo}
    (absent : s.namespaces.idMap[info.namespaceName]? = none) :
    ZonesOwned { s with namespaces :=
      { s.namespaces.setNamespaceInfo info with maxNamespaceId := info.namespaceId } } where
  plain := h.plain
  parent z zone hz := by
    have here := h.parent z zone hz
    have ne : info.namespaceName ≠ zone.namespaceName := by
      intro eq
      rw [eq, here] at absent
      simp at absent
    exact (Table.lookup_insert_ne _ _ ne).trans here
  zoneIds := h.zoneIds

/-- A namespace that is dropped is the parent of no zone, so no zone loses its own. -/
theorem ZonesOwned.dropNamespace {s : Schema} (h : ZonesOwned s) {name : Bytes} {id : Nat}
    (found : s.namespaces.idMap[name]? = some id)
    (empty : ∀ z, ¬ s.namespaces.zoneIds.Has id z) :
    ZonesOwned { s with namespaces :=
      (s.namespaces.touchZoneIds id).eraseNamespaceInfo name } := by
  have erased := NamespaceManager.eraseNamespaceInfo_of_lookup
    (m := s.namespaces.touchZoneIds id) found
  rw [erased]
  constructor
  case plain => exact h.plain
  case parent =>
    intro z zone hz
    have here := h.parent z zone hz
    have ne : name ≠ zone.namespaceName := by
      rintro rfl
      have same : id = zone.namespaceId := Option.some.inj (found.symm.trans here)
      exact empty z ((h.zoneIds id z).mpr ⟨zone, hz, same.symm⟩)
    exact (Table.lookup_erase_ne _ ne).trans here
  case zoneIds =>
    refine h.zoneIds.of_has_iff fun n z => ?_
    refine ⟨fun has => Index.has_touch.mp (Index.has_erase.mp has).1, fun has => ?_⟩
    refine Index.has_erase.mpr ⟨Index.has_touch.mpr has, fun eq => ?_⟩
    subst n
    exact empty z has

theorem ZonesOwned.modifyNamespace {db : MetaDb} {s : Schema} (h : ZonesOwned s)
    (cat : Catalog db s) {id : Nat} {old info : NameSpaceInfo}
    (found : s.namespaces.infoMap[id]? = some old)
    (sameName : info.namespaceName = old.namespaceName)
    (sameId : info.namespaceId = old.namespaceId) :
    ZonesOwned { s with namespaces := s.namespaces.setNamespaceInfo info } where
  plain := h.plain
  parent z zone hz := by
    have here := h.parent z zone hz
    by_cases eq : info.namespaceName = zone.namespaceName
    · have own := cat.namespaces.registry.id_of_name found
      have carried := cat.namespaces.registry.carries id old found
      rw [← sameName, eq, here] at own
      have same : info.namespaceId = zone.namespaceId := by
        rw [sameId, carried, Option.some.inj own]
      rw [← eq, ← same]
      exact Table.lookup_insert_self ..
    · exact (Table.lookup_insert_ne _ _ eq).trans here
  zoneIds := h.zoneIds

theorem ZonesOwned.createZone {db : MetaDb} {s : Schema} (h : ZonesOwned s) (cat : Catalog db s)
    {info : ZoneInfo} (plain : 0x01 ∉ info.namespaceName)
    (parent : s.namespaces.idMap[info.namespaceName]? = some info.namespaceId)
    (number : info.zoneId = s.zones.maxZoneId + 1) :
    ZonesOwned { s with
      zones := { s.zones.setZoneInfo info with maxZoneId := info.zoneId }
      namespaces := s.namespaces.addZoneId info.namespaceId info.zoneId } where
  plain z zone hz := by
    rcases Table.lookup_insert_some hz with ⟨_, rfl⟩ | ⟨_, hz⟩
    · exact plain
    · exact h.plain z zone hz
  parent z zone hz := by
    rcases Table.lookup_insert_some hz with ⟨_, rfl⟩ | ⟨_, hz⟩
    · exact parent
    · exact h.parent z zone hz
  zoneIds := by
    refine h.zoneIds.insert fun zone hz => ?_
    have le := cat.zones.registry.bounded _ zone hz
    omega

/-- The zone leaves the set of the namespace that the request names, which is the
one the zone was created in: zone keys split in one way only. -/
theorem ZonesOwned.dropZone {db : MetaDb} {s : Schema} (h : ZonesOwned s) (cat : Catalog db s)
    {request : DiscoveryManagerRequest} (plain : 0x01 ∉ request.zoneInfo.namespaceName)
    {namespaceId id : Nat}
    (parent : s.namespaces.idMap[request.zoneInfo.namespaceName]? = some namespaceId)
    (found : s.zones.idMap[request.zoneKey]? = some id) :
    ZonesOwned { s with
      zones := (s.zones.touchServletIds id).eraseZoneInfo request.zoneKey
      namespaces := s.namespaces.deleteZoneId namespaceId id } := by
  obtain ⟨info, hinfo, sameKey, _⟩ := cat.zones.registry.lookup found
  obtain ⟨sameName, _⟩ := makeZoneKey_inj (h.plain id info hinfo) plain sameKey
  have owned : info.namespaceId = namespaceId := by
    have here := h.parent id info hinfo
    rw [sameName, parent] at here
    exact (Option.some.inj here).symm
  have erased := ZoneManager.eraseZoneInfo_of_lookup (m := s.zones.touchServletIds id) found
  rw [erased]
  constructor
  case plain => exact fun z zone hz => h.plain z zone (Table.lookup_erase_some hz).2
  case parent => exact fun z zone hz => h.parent z zone (Table.lookup_erase_some hz).2
  case zoneIds =>
    have removed := h.zoneIds.remove hinfo
    rwa [owned] at removed

theorem ZonesOwned.modifyZone {db : MetaDb} {s : Schema} (h : ZonesOwned s) (cat : Catalog db s)
    {id : Nat} {old info : ZoneInfo} (found : s.zones.infoMap[id]? = some old)
    (sameNames : info.namespaceName = old.namespaceName ∧ info.zone = old.zone)
    (sameIds : info.zoneId = old.zoneId ∧ info.namespaceId = old.namespaceId) :
    ZonesOwned { s with zones := s.zones.setZoneInfo info } := by
  have carried : info.zoneId = id := sameIds.1.trans (cat.zones.registry.carries id old found)
  constructor
  case plain =>
    intro z zone hz
    rcases Table.lookup_insert_some hz with ⟨_, rfl⟩ | ⟨_, hz⟩
    · rw [sameNames.1]
      exact h.plain id old found
    · exact h.plain z zone hz
  case parent =>
    intro z zone hz
    rcases Table.lookup_insert_some hz with ⟨_, rfl⟩ | ⟨_, hz⟩
    · rw [sameNames.1, sameIds.2]
      exact h.parent id old found
    · exact h.parent z zone hz
  case zoneIds =>
    have replaced := h.zoneIds.replace found sameIds.2
    rwa [← carried] at replaced

theorem zonesOwned_step {request : DiscoveryManagerRequest} (plain : request.Plain) {db : MetaDb}
    {s : Schema} {p : Plan Schema} (h : ZonesOwned s) (cat : Catalog db s)
    (step : SchemaStep request s p) : p.Preserves (fun _ s => ZonesOwned s) db := by
  cases step with
  | refused => exact h
  | namespaceHasZones => exact h.of_same rfl rfl fun _ _ => Index.has_touch
  | zoneHasServlets => exact h.of_same rfl rfl fun _ _ => Iff.rfl
  | createNamespace info named absent number => exact ⟨h, h.createNamespace absent⟩
  | dropNamespace id found empty =>
    exact ⟨h.of_same rfl rfl fun _ _ => Index.has_touch, h.dropNamespace found empty⟩
  | modifyNamespace id old info found read sameName sameId =>
    have here := cat.getD_namespace found read
    rw [NamespaceManager.touchInfo_of_lookup here]
    exact ⟨h, h.modifyNamespace cat here sameName sameId⟩
  | createZone info named parent absent number =>
    have plainName : 0x01 ∉ info.namespaceName := by
      rw [named.1]
      exact plain.2.1.1
    exact ⟨h, h.createZone cat plainName parent number⟩
  | dropZone namespaceId id parent found empty =>
    exact ⟨h.of_same rfl rfl fun _ _ => Iff.rfl, h.dropZone cat plain.2.1.1 parent found⟩
  | modifyZone id old info found read sameNames sameIds =>
    have here := cat.getD_zone found read
    rw [ZoneManager.touchInfo_of_lookup here]
    exact ⟨h, h.modifyZone cat here sameNames sameIds⟩
  | createServlet => exact ⟨h, h.of_same rfl rfl fun _ _ => Iff.rfl⟩
  | dropServlet =>
    exact ⟨h.of_same rfl rfl fun _ _ => Iff.rfl, h.of_same rfl rfl fun _ _ => Iff.rfl⟩
  | modifyServlet =>
    exact ⟨h.of_same rfl rfl fun _ _ => Iff.rfl, h.of_same rfl rfl fun _ _ => Iff.rfl⟩

end EA
