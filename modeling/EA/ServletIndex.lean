import EA.CatalogRuns

namespace EA

open ByteString

variable {serialises : MetaValue → Bool}

/-- Servlets with their records, the set of servlets of each zone, and the zone of
each servlet. -/
structure ServletsKept (db : MetaDb) (s : Schema) : Prop where
  servlets : s.servlets.Kept db
  servletIds : Index.Exact ServletInfo.zoneId s.zones.servletIds s.servlets.infoMap
  plain : ∀ (v : Nat) (info : ServletInfo), s.servlets.infoMap[v]? = some info →
    0x01 ∉ info.namespaceName ∧ 0x01 ∉ info.zone
  zone : ∀ (v : Nat) (info : ServletInfo), s.servlets.infoMap[v]? = some info →
    s.zones.idMap[info.zoneKey]? = some info.zoneId

theorem servletsKept_empty : ServletsKept ∅ {} where
  servlets := .empty ..
  servletIds := Index.exact_empty _
  plain := by simp
  zone := by simp

theorem ServletsKept.frame {db db' : MetaDb} {s : Schema}
    (same : SameRecords schemaIdentify db db') (h : ServletsKept db s) : ServletsKept db' s where
  servlets := h.servlets.frame (fun _ => same _ rfl) (same _ rfl)
  servletIds := h.servletIds
  plain := h.plain
  zone := h.zone

/-- A step that leaves the servlets alone, and every zone that has one. -/
theorem ServletsKept.of_same {db db' : MetaDb} {s s' : Schema} (h : ServletsKept db s)
    (kept : s.servlets.Kept db') (servlets : s'.servlets = s.servlets)
    (servletIds : ∀ z v, s'.zones.servletIds.Has z v ↔ s.zones.servletIds.Has z v)
    (zones : ∀ (name : Bytes) (z : Nat), s.zones.idMap[name]? = some z →
      (∃ v, s.zones.servletIds.Has z v) → s'.zones.idMap[name]? = some z) :
    ServletsKept db' s' where
  servlets := by
    rw [servlets]
    exact kept
  servletIds := by
    rw [servlets]
    exact h.servletIds.of_has_iff servletIds
  plain := by
    rw [servlets]
    exact h.plain
  zone v info found := by
    rw [servlets] at found
    have has := (h.servletIds info.zoneId v).mpr ⟨info, found, rfl⟩
    exact zones _ _ (h.zone v info found) ⟨v, has⟩

theorem ServletsKept.create {db : MetaDb} {s : Schema} (h : ServletsKept db s)
    {info : ServletInfo} (plain : 0x01 ∉ info.namespaceName ∧ 0x01 ∉ info.zone)
    (zone : s.zones.idMap[info.zoneKey]? = some info.zoneId)
    (absent : s.servlets.idMap[info.servletKey]? = none)
    (number : info.servletId = s.servlets.maxServletId + 1)
    (own : info.zoneId = info.namespaceId) :
    ServletsKept
      ([(constructServletKey info.servletId, some (.servletInfo info)),
        (constructMaxServletIdKey, some (.raw (rawId info.servletId)))].foldl BatchOp.apply db)
      { s with
        servlets := { s.servlets.setServletInfo info with maxServletId := info.servletId }
        zones := s.zones.addServletId info.namespaceId info.servletId } where
  servlets := h.servlets.create servletKeyspace absent number
  servletIds := by
    rw [← own]
    refine h.servletIds.insert fun old found => ?_
    have le := h.servlets.registry.bounded _ old found
    omega
  plain v info' found := by
    rcases Table.lookup_insert_some found with ⟨_, rfl⟩ | ⟨_, found⟩
    · exact plain
    · exact h.plain v info' found
  zone v info' found := by
    rcases Table.lookup_insert_some found with ⟨_, rfl⟩ | ⟨_, found⟩
    · exact zone
    · exact h.zone v info' found

theorem ServletsKept.modify {db : MetaDb} {s : Schema} (h : ServletsKept db s) {id : Nat}
    {old info : ServletInfo} (found : s.servlets.infoMap[id]? = some old)
    (names : info.namespaceName = old.namespaceName ∧ info.zone = old.zone ∧
      info.servletName = old.servletName)
    (sameIds : info.servletId = old.servletId ∧ info.zoneId = old.zoneId) :
    ServletsKept ([(constructServletKey id, some (.servletInfo info))].foldl BatchOp.apply db)
      { s with servlets := s.servlets.setServletInfo info } := by
  have carried : info.servletId = id := sameIds.1.trans (h.servlets.registry.carries id old found)
  have zoneKey : info.zoneKey = old.zoneKey := by
    rw [ServletInfo.zoneKey, ServletInfo.zoneKey, names.1, names.2.1]
  have servletKey : info.servletKey = old.servletKey := by
    rw [ServletInfo.servletKey, ServletInfo.servletKey, zoneKey, names.2.2]
  refine ⟨h.servlets.modify servletKeyspace found servletKey sameIds.1, ?_, ?_, ?_⟩
  · have replaced := h.servletIds.replace found sameIds.2
    rwa [← carried] at replaced
  · intro v info' hv
    rcases Table.lookup_insert_some hv with ⟨_, rfl⟩ | ⟨_, hv⟩
    · rw [names.1, names.2.1]
      exact h.plain id old found
    · exact h.plain v info' hv
  · intro v info' hv
    rcases Table.lookup_insert_some hv with ⟨_, rfl⟩ | ⟨_, hv⟩
    · rw [zoneKey, sameIds.2]
      exact h.zone id old found
    · exact h.zone v info' hv

/-- With plain names a zone's key is no servlet's key. -/
theorem servletKey_ne_zoneKey {info : ServletInfo} (plainName : 0x01 ∉ info.namespaceName)
    {namespaceName zone : Bytes} (hn : 0x01 ∉ namespaceName) (hz : 0x01 ∉ zone) :
    info.servletKey ≠ makeZoneKey namespaceName zone := by
  intro key
  have split : info.namespaceName ++ 0x01 :: (info.zone ++ 0x01 :: info.servletName) =
      namespaceName ++ 0x01 :: zone := by
    simpa [ServletInfo.servletKey, ServletInfo.zoneKey, makeServletKey, makeZoneKey] using key
  obtain ⟨_, rest⟩ := append_separator_inj plainName hn split
  rw [← rest] at hz
  simp at hz

/-- So `drop_servlet` finds nothing to drop. -/
theorem ServletsKept.no_zoneKey {db : MetaDb} {s : Schema} (h : ServletsKept db s)
    {namespaceName zone : Bytes} (hn : 0x01 ∉ namespaceName) (hz : 0x01 ∉ zone) :
    s.servlets.idMap[makeZoneKey namespaceName zone]? = none := by
  cases found : s.servlets.idMap[makeZoneKey namespaceName zone]? with
  | none => rfl
  | some id =>
    obtain ⟨info, hinfo, key, _⟩ := h.servlets.registry.lookup found
    exact absurd key (servletKey_ne_zoneKey (h.plain id info hinfo).1 hn hz)

/-- The checks of `create_servlet` before it writes. -/
def CreatesServlet (request : DiscoveryManagerRequest) (s : Schema) : Prop :=
  s.namespaces.getNamespaceId request.servletInfo.namespaceName ≠ 0 ∧
    s.zones.getZoneId request.servletInfo.zoneKey ≠ 0 ∧
    request.servletInfo.servletKey ∉ s.servlets.idMap

/-- The checks of `modify_servlet` before it reads the info. -/
def ModifiesServlet (request : DiscoveryManagerRequest) (s : Schema) : Prop :=
  s.namespaces.getNamespaceId request.servletInfo.namespaceName ≠ 0 ∧
    s.zones.getZoneId request.servletInfo.zoneKey ≠ 0 ∧
    request.servletInfo.servletKey ∈ s.servlets.idMap

/-- Names hold no separator; a servlet is created only in a zone whose number is its
namespace's, and modified only where its own number is its zone's (or where the write
fails and the zone's number is some servlet's). -/
def ServletSafe (serialises : MetaValue → Bool) (r : Replica) : DiscoveryEvent → Prop
  | .apply request env =>
    let s := r.memory.schema
    let zoneId := s.zones.getZoneId request.servletInfo.zoneKey
    request.Plain ∧
    (request.opType = .opCreateServlet → CreatesServlet request s → env.dbOk = true →
      serialises (.servletInfo (createdServlet request s)) = true →
      zoneId = s.namespaces.getNamespaceId request.servletInfo.namespaceName) ∧
    (request.opType = .opModifyServlet → ModifiesServlet request s →
      s.servlets.getServletId request.servletInfo.servletKey = zoneId ∨
      (zoneId ∈ s.servlets.infoMap ∧ ¬ (env.dbOk = true ∧ serialises (.servletInfo
        (modifiedServlet request.servletInfo (s.servlets.infoMap.getD zoneId default))) = true)))
  | .reload => True
  | .restart => True

theorem servletsKept_dropZone {db : MetaDb} {s : Schema} (h : ServletsKept db s) {name : Bytes}
    {namespaceId id : Nat} (found : s.zones.idMap[name]? = some id)
    (empty : ∀ v, ¬ s.zones.servletIds.Has id v) :
    ServletsKept ([(constructZoneKey id, none)].foldl BatchOp.apply db)
      { s with
        zones := (s.zones.touchServletIds id).eraseZoneInfo name
        namespaces := s.namespaces.deleteZoneId namespaceId id } := by
  have erased := ZoneManager.eraseZoneInfo_of_lookup (m := s.zones.touchServletIds id) found
  rw [erased]
  refine h.of_same (h.servlets.batch servletKeyspace (by simp)) rfl ?_ ?_
  · intro z v
    refine ⟨fun has => Index.has_touch.mp (Index.has_erase.mp has).1, fun has => ?_⟩
    refine Index.has_erase.mpr ⟨Index.has_touch.mpr has, fun eq => ?_⟩
    subst z
    exact empty v has
  · intro other z hz hv
    obtain ⟨v, has⟩ := hv
    have ne : name ≠ other := by
      intro eq
      subst other
      cases Option.some.inj (found.symm.trans hz)
      exact empty v has
    exact (Table.lookup_erase_ne _ ne).trans hz

theorem servletsKept_createZone {db db' : MetaDb} {s : Schema} (h : ServletsKept db s)
    (kept : s.servlets.Kept db') (namespaces : NamespaceManager) {info : ZoneInfo}
    (absent : s.zones.idMap[info.zoneKey]? = none) :
    ServletsKept db' { s with
      zones := { s.zones.setZoneInfo info with maxZoneId := info.zoneId }
      namespaces := namespaces } := by
  refine h.of_same kept rfl (fun _ _ => Iff.rfl) fun name z hz _ => ?_
  have ne : info.zoneKey ≠ name := by
    intro eq
    rw [eq, hz] at absent
    simp at absent
  exact (Table.lookup_insert_ne _ _ ne).trans hz

/-- A modified zone keeps its names and its number. -/
theorem servletsKept_modifyZone {db db' : MetaDb} {s : Schema} (cat : Catalog db s)
    (h : ServletsKept db s) (kept : s.servlets.Kept db') {id : Nat} {old info : ZoneInfo}
    (here : s.zones.infoMap[id]? = some old)
    (sameNames : info.namespaceName = old.namespaceName ∧ info.zone = old.zone)
    (sameIds : info.zoneId = old.zoneId ∧ info.namespaceId = old.namespaceId) :
    ServletsKept db' { s with zones := s.zones.setZoneInfo info } := by
  refine h.of_same kept rfl (fun _ _ => Iff.rfl) fun name z hz _ => ?_
  have named : info.zoneKey = old.zoneKey := by
    rw [ZoneInfo.zoneKey, ZoneInfo.zoneKey, sameNames.1, sameNames.2]
  have carried := cat.zones.registry.carries id old here
  by_cases eq : info.zoneKey = name
  · have own := cat.zones.registry.id_of_name here
    rw [← named, eq, hz] at own
    rw [← eq, Option.some.inj own, ← carried, ← sameIds.1]
    exact Table.lookup_insert_self ..
  · exact (Table.lookup_insert_ne _ _ eq).trans hz

/-- A request whose servlet is created passed the checks. -/
theorem createsServlet_of_parents {db : MetaDb} {s : Schema} (cat : Catalog db s)
    {request : DiscoveryManagerRequest} {namespaceId zoneId : Nat}
    (parent : s.namespaces.idMap[request.servletInfo.namespaceName]? = some namespaceId)
    (zone : s.zones.idMap[request.servletInfo.zoneKey]? = some zoneId)
    (absent : s.servlets.idMap[request.servletInfo.servletKey]? = none) :
    CreatesServlet request s := by
  obtain ⟨_, parentInfo, _⟩ := cat.namespaces.registry.lookup parent
  obtain ⟨_, zoneInfo, _⟩ := cat.zones.registry.lookup zone
  have parentPos := cat.namespaces.registry.positive _ _ parentInfo
  have zonePos := cat.zones.registry.positive _ _ zoneInfo
  refine ⟨?_, ?_, ?_⟩
  · rw [NamespaceManager.getNamespaceId_of_lookup parent]
    omega
  · rw [ZoneManager.getZoneId_of_lookup zone]
    omega
  · intro mem
    obtain ⟨id, found⟩ := Table.mem_iff_lookup.mp mem
    rw [absent] at found
    cases found

theorem servletsKept_step {request : DiscoveryManagerRequest} {env : Env} {r : Replica}
    {p : Plan Schema} (cat : Catalog r.db r.memory.schema) (h : ServletsKept r.db r.memory.schema)
    (safe : ServletSafe serialises r (.apply request env))
    (step : SchemaStep request r.memory.schema p) :
    ServletsKept (p.run serialises env.dbOk r.db).1.1 (p.run serialises env.dbOk r.db).1.2 := by
  obtain ⟨plain, create, modify⟩ := safe
  have foreign : ∀ {ops : List BatchOp}, (∀ op ∈ ops, owner op.1 ≠ some 0x0A) →
      r.memory.schema.servlets.Kept (ops.foldl BatchOp.apply r.db) :=
    fun ops => h.servlets.batch servletKeyspace ops
  have touched : ∀ id, ServletsKept r.db { r.memory.schema with
      zones := r.memory.schema.zones.touchServletIds id } := fun id =>
    h.of_same h.servlets rfl (fun _ _ => Index.has_touch) fun _ _ hz _ => hz
  cases step with
  | refused => exact h
  | namespaceHasZones => exact ⟨h.servlets, h.servletIds, h.plain, h.zone⟩
  | zoneHasServlets id => exact touched id
  | createNamespace =>
    refine Plan.run_write_preserves h fun _ _ => ?_
    exact h.of_same (foreign (by simp)) rfl (fun _ _ => Iff.rfl) fun _ _ hz _ => hz
  | dropNamespace =>
    refine Plan.run_write_preserves ⟨h.servlets, h.servletIds, h.plain, h.zone⟩ fun _ _ => ?_
    exact h.of_same (foreign (by simp)) rfl (fun _ _ => Iff.rfl) fun _ _ hz _ => hz
  | modifyNamespace =>
    refine Plan.run_write_preserves ⟨h.servlets, h.servletIds, h.plain, h.zone⟩ fun _ _ => ?_
    exact h.of_same (foreign (by simp)) rfl (fun _ _ => Iff.rfl) fun _ _ hz _ => hz
  | createZone info named parent absent number =>
    exact Plan.run_write_preserves h fun _ _ =>
      servletsKept_createZone h (foreign (by simp)) _ absent
  | dropZone namespaceId id parent found empty =>
    exact Plan.run_write_preserves (touched id) fun _ _ => servletsKept_dropZone h found empty
  | modifyZone id old info found read sameNames sameIds =>
    have here := cat.getD_zone found read
    rw [ZoneManager.touchInfo_of_lookup here]
    exact Plan.run_write_preserves h fun _ _ =>
      servletsKept_modifyZone cat h (foreign (by simp)) here sameNames sameIds
  | createServlet info op built named parents absent number =>
    refine Plan.run_write_preserves h fun fits works => ?_
    obtain ⟨space, place, name⟩ := named
    have zoneKey : info.zoneKey = request.servletInfo.zoneKey := by
      rw [ServletInfo.zoneKey, space, place, ServletInfo.zoneKey]
    have plainInfo : 0x01 ∉ info.namespaceName ∧ 0x01 ∉ info.zone := by
      rw [space, place]
      exact ⟨plain.2.2.1.1, plain.2.2.1.2.1⟩
    -- the request passed its checks and was written, so it meets the condition
    have own : info.zoneId = info.namespaceId := by
      obtain ⟨parentFound, zoneFound⟩ := parents
      have servletKey : info.servletKey = request.servletInfo.servletKey := by
        rw [ServletInfo.servletKey, zoneKey, name, ServletInfo.servletKey]
      rw [servletKey] at absent
      rw [zoneKey] at zoneFound
      have checks := createsServlet_of_parents cat parentFound zoneFound absent
      have fitsInfo : serialises (.servletInfo (createdServlet request r.memory.schema)) = true := by
        rw [built]
        simpa using fits
      have equal := create op checks works fitsInfo
      rwa [ZoneManager.getZoneId_of_lookup zoneFound,
        NamespaceManager.getNamespaceId_of_lookup parentFound] at equal
    exact h.create plainInfo parents.2 absent number own
  | dropServlet zoneId other op owner zone found =>
    have none := h.no_zoneKey plain.2.2.1.1 plain.2.2.1.2.1
    rw [ServletInfo.zoneKey, none] at found
    simp at found
  | modifyServlet zoneId id old info op owner zone found read built sameNames sameIds =>
    have number := ZoneManager.getZoneId_of_lookup zone
    have own : r.memory.schema.servlets.getServletId request.servletInfo.servletKey = id := by
      rw [ServletManager.getServletId, found]
      rfl
    obtain ⟨_, zoneInfo, _⟩ := cat.zones.registry.lookup zone
    have zonePos := cat.zones.registry.positive _ _ zoneInfo
    have checks : ModifiesServlet request r.memory.schema :=
      ⟨owner, by rw [number]; omega, Table.mem_iff_lookup.mpr ⟨id, found⟩⟩
    have cases := modify op checks
    rw [own, number, read, built] at cases
    rcases cases with rfl | ⟨known, fails⟩
    · obtain ⟨servlet, hservlet, _⟩ := h.servlets.registry.lookup found
      rw [Table.getD_eq, hservlet] at read
      cases read
      rw [ServletManager.touchInfo_of_lookup hservlet]
      exact Plan.run_write_preserves h fun _ _ => h.modify hservlet sameNames sameIds
    · obtain ⟨servlet, hservlet⟩ := Table.mem_iff_lookup.mp known
      rw [ServletManager.touchInfo_of_lookup hservlet]
      refine Plan.run_write_preserves h fun fits works => ?_
      exact absurd ⟨works, by simpa using fits⟩ fails

theorem ServletsKept.reload {db : MetaDb} {s s₀ s' : Schema} (h : ServletsKept db s)
    (cat : Catalog db s) (start : s₀ = s ∨ s₀ = {}) (load : loadSchema db s₀ = some s') :
    ServletsKept db s' := by
  obtain ⟨rs, lists, loaded⟩ := loadSchema_eq cat.recorded s₀
  have same := cat.loaded start lists
  obtain ⟨_, _, startServlets⟩ := counter_starts start
  have listed := h.servlets.exact (fun _ _ eq => MetaValue.servletInfo.inj eq)
    fun _ => mem_servlets lists
  rw [loaded] at load
  cases Option.some.inj load
  have infoMap : (loadedSchema rs s₀.clear).servlets.infoMap = s.servlets.infoMap :=
    h.servlets.registry.rebuild_infoMap listed
  have idMap : (loadedSchema rs s₀.clear).servlets.idMap = s.servlets.idMap :=
    h.servlets.registry.rebuild_idMap listed
  have counter : (loadedSchema rs s₀.clear).servlets.maxServletId = s.servlets.maxServletId :=
    h.servlets.lastCounter (fun _ => mem_counters lists .servlets) startServlets
  refine ⟨?_, ?_, ?_, ?_⟩
  · rw [ServletManager.Kept, infoMap, idMap, counter]
    exact h.servlets
  · rw [infoMap]
    exact Index.exact_addAll listed h.servlets.registry.carries
  · rw [infoMap]
    exact h.plain
  · rw [infoMap, same.zoneNames]
    exact h.zone

theorem reachable_servletsKept {r : Replica}
    (h : Reachable serialises (ServletSafe serialises) r) : ServletsKept r.db r.memory.schema := by
  have both : Catalog r.db r.memory.schema ∧ ServletsKept r.db r.memory.schema := by
    refine schema_invariant (I := fun db s => Catalog db s ∧ ServletsKept db s)
      ⟨catalog_empty, servletsKept_empty⟩ ?_ ?_ ?_ h
    · exact fun same inv => ⟨inv.1.frame same, inv.2.frame same⟩
    · intro r request env p inv safe hp
      have step := schemaPlan_step hp
      exact ⟨Plan.run_preserves (catalog_step inv.1 step), servletsKept_step inv.1 inv.2 safe step⟩
    · intro db s s₀ s' inv start load
      exact ⟨(inv.1.reload start load).1, inv.2.reload inv.1 start load⟩
  exact both.2

theorem dropZone_success {r : Replica} {request : DiscoveryManagerRequest} (now : Int)
    (op : request.opType = .opDropZone) {id : Nat}
    (parent : r.memory.schema.namespaces.getNamespaceId request.zoneInfo.namespaceName ≠ 0)
    (found : r.memory.schema.zones.idMap[request.zoneKey]? = some id) :
    (onApply serialises request ⟨now, true⟩ r).2.errcode = .success ↔
      ∀ v, ¬ r.memory.schema.zones.servletIds.Has id v := by
  rw [← Index.isEmpty_members]
  rw [DiscoveryManagerRequest.zoneKey] at found
  simp only [onApply, handle, op, dropZone, if_neg parent, found]
  cases none : (r.memory.schema.zones.servletIds.members id).isEmpty with
  | true => simp [Plan.map, Plan.run]
  | false => simp [Plan.map, Plan.run]

/-- Zones know their servlets, so none is dropped under a servlet. -/
structure ServletsConsistent (serialises : MetaValue → Bool) (r : Replica) : Prop where
  servletIds : ∀ z v, r.memory.schema.zones.servletIds.Has z v ↔
    ∃ info : ServletInfo, r.memory.schema.servlets.infoMap[v]? = some info ∧
      info.servletId = v ∧ info.zoneId = z
  zoneExists : ∀ (v : Nat) (info : ServletInfo),
    r.memory.schema.servlets.infoMap[v]? = some info →
    ∃ zone : ZoneInfo, r.memory.schema.zones.infoMap[info.zoneId]? = some zone ∧
      zone.namespaceName = info.namespaceName ∧ zone.zone = info.zone
  dropZone : ∀ (request : DiscoveryManagerRequest) (now : Int) (id : Nat),
    request.opType = .opDropZone → 0x01 ∉ request.zoneInfo.namespaceName →
    r.memory.schema.zones.idMap[request.zoneKey]? = some id →
    ((onApply serialises request ⟨now, true⟩ r).2.errcode ≠ .success ↔
      ∃ (v : Nat) (info : ServletInfo), r.memory.schema.servlets.infoMap[v]? = some info ∧
        info.zoneId = id)
  rebuilt : ∃ s, loadSchema r.db {} = some s ∧
    ∀ z, s.zones.servletIds.members z = r.memory.schema.zones.servletIds.members z

theorem servlets_consistent {r : Replica}
    (h : Reachable serialises (ServletSafe serialises) r) : ServletsConsistent serialises r := by
  have cat := reachable_catalog h
  have kept := reachable_servletsKept h
  have owned : ZonesOwned r.memory.schema := by
    refine reachable_zonesOwned (fun _ e safe => ?_) h
    cases e with
    | apply => exact safe.1
    | _ => trivial
  refine ⟨?_, ?_, ?_, ?_⟩
  · intro z v
    rw [kept.servletIds z v]
    refine exists_congr fun info => and_congr_right fun found => ?_
    simp [kept.servlets.registry.carries v info found]
  · intro v info found
    obtain ⟨zone, hz, key, _⟩ := cat.zones.registry.lookup (kept.zone v info found)
    exact ⟨zone, hz, makeZoneKey_inj (owned.plain _ zone hz) (kept.plain v info found).1 key⟩
  · intro request now id op plain found
    obtain ⟨zone, hz, key, _⟩ := cat.zones.registry.lookup found
    obtain ⟨sameName, _⟩ := makeZoneKey_inj (owned.plain id zone hz) plain key
    have parent : r.memory.schema.namespaces.getNamespaceId request.zoneInfo.namespaceName ≠ 0 := by
      have parentFound := owned.parent id zone hz
      rw [sameName] at parentFound
      obtain ⟨info, hinfo, _⟩ := cat.namespaces.registry.lookup parentFound
      have pos := cat.namespaces.registry.positive _ info hinfo
      rw [NamespaceManager.getNamespaceId_of_lookup parentFound]
      omega
    rw [Ne, dropZone_success now op parent found]
    refine ⟨fun refused => ?_, fun live none => ?_⟩
    · obtain ⟨v, has⟩ := not_forall_not.mp refused
      obtain ⟨info, hv, owner⟩ := (kept.servletIds id v).mp has
      exact ⟨v, info, hv, owner⟩
    · obtain ⟨v, info, hv, owner⟩ := live
      exact none v ((kept.servletIds id v).mpr ⟨info, hv, owner⟩)
  · obtain ⟨rs, lists, loaded⟩ := loadSchema_eq cat.recorded {}
    have again := kept.reload cat (Or.inr rfl) loaded
    have infoMap : (loadedSchema rs ({} : Schema).clear).servlets.infoMap =
        r.memory.schema.servlets.infoMap := by
      refine kept.servlets.registry.rebuild_infoMap ?_
      exact kept.servlets.exact (fun _ _ eq => MetaValue.servletInfo.inj eq)
        fun _ => mem_servlets lists
    have rebuilt := again.servletIds
    rw [infoMap] at rebuilt
    exact ⟨_, loaded, kept.servletIds.members_eq rebuilt⟩

instance (request : DiscoveryManagerRequest) (s : Schema) :
    Decidable (CreatesServlet request s) := by
  unfold CreatesServlet
  infer_instance

instance (request : DiscoveryManagerRequest) (s : Schema) :
    Decidable (ModifiesServlet request s) := by
  unfold ModifiesServlet
  infer_instance

instance (r : Replica) (e : DiscoveryEvent) : Decidable (ServletSafe serialises r e) :=
  match e with
  | .apply .. => inferInstanceAs (Decidable (_ ∧ _))
  | .reload => isTrue trivial
  | .restart => isTrue trivial

def zoneEvent (opType : OpType) (namespaceName zone : String) : DiscoveryEvent :=
  .apply { opType := opType,
           zoneInfo := { namespaceName := ascii namespaceName, zone := ascii zone } } ⟨0, true⟩

def servletEvent (opType : OpType) (namespaceName zone servlet : String) : DiscoveryEvent :=
  .apply { opType := opType,
           servletInfo := { namespaceName := ascii namespaceName, zone := ascii zone,
                            servletName := ascii servlet } } ⟨0, true⟩

def namespaceEvent (namespaceName : String) : DiscoveryEvent :=
  .apply { opType := .opCreateNamespace,
           namespaceInfo := { namespaceName := ascii namespaceName } } ⟨0, true⟩

/-- Two namespaces with a zone each, whose numbers agree, and a servlet in each zone. -/
def servletEvents : List DiscoveryEvent :=
  [namespaceEvent "shop", zoneEvent .opCreateZone "shop" "east",
    servletEvent .opCreateServlet "shop" "east" "cart",
    namespaceEvent "mart", zoneEvent .opCreateZone "mart" "west",
    servletEvent .opCreateServlet "mart" "west" "till",
    servletEvent .opModifyServlet "mart" "west" "till", .restart,
    zoneEvent .opDropZone "mart" "west"]

theorem servlets_consistent_after_restart :
    ∃ r, servletEvents.foldlM (fun r e => if ServletSafe (fun _ => true) r e then
        Replica.step (fun _ => true) r e else none) {} = some r ∧
      ServletsConsistent (fun _ => true) r ∧ r.memory.schema.servlets.infoMap.keys = [1, 2] := by
  have run : (servletEvents.foldlM (fun r e => if ServletSafe (fun _ => true) r e then
      Replica.step (fun _ => true) r e else none) {}).map
        (fun r => r.memory.schema.servlets.infoMap.keys) = some [1, 2] := by decide
  obtain ⟨r, hr, keys⟩ := Option.map_eq_some_iff.mp run
  exact ⟨r, hr, servlets_consistent (Reach.From.of_checked hr), keys⟩

/-- The servlet of a second zone is noted under the number of its namespace, which is
another zone's, and its own zone is dropped under it. -/
theorem zone_dropped_under_servlet :
    ¬ ∀ r, Reachable (fun _ => true) (fun _ e => PlainNames e) r →
      ServletsConsistent (fun _ => true) r := by
  intro consistent
  have run : ([namespaceEvent "shop", zoneEvent .opCreateZone "shop" "east",
      zoneEvent .opCreateZone "shop" "west", servletEvent .opCreateServlet "shop" "west" "till",
      zoneEvent .opDropZone "shop" "west"].foldlM
        (fun r e => if PlainNames e then Replica.step (fun _ => true) r e else none) {}).map
      (fun r => ((r.memory.schema.servlets.infoMap[1]?).map ServletInfo.zoneId,
        r.memory.schema.zones.infoMap[2]?)) = some (some 2, none) := by decide
  obtain ⟨r, hr, eq⟩ := Option.map_eq_some_iff.mp run
  obtain ⟨servlet, zone⟩ := Prod.mk.inj eq
  obtain ⟨info, found, parent⟩ := Option.map_eq_some_iff.mp servlet
  obtain ⟨owner, hz, _⟩ := (consistent r (Reach.From.of_checked hr)).zoneExists 1 info found
  rw [parent, zone] at hz
  simp at hz

end EA
