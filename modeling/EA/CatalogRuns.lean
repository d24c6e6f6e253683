import EA.SchemaLoad

namespace EA

open ByteString

variable {serialises : MetaValue → Bool} {ok : Replica → DiscoveryEvent → Prop} {r : Replica}

theorem reachable_catalog (h : Reachable serialises ok r) : Catalog r.db r.memory.schema := by
  refine schema_invariant catalog_empty ?_ ?_ ?_ h
  · exact fun same cat => cat.frame same
  · intro r request env p cat _ hp
    exact Plan.run_preserves (catalog_step cat (schemaPlan_step hp))
  · intro db s s₀ s' cat start load
    exact (cat.reload start load).1

theorem reachable_zonesOwned (plain : ∀ r e, ok r e → PlainNames e)
    (h : Reachable serialises ok r) : ZonesOwned r.memory.schema := by
  have both : Catalog r.db r.memory.schema ∧ ZonesOwned r.memory.schema := by
    refine schema_invariant (I := fun db s => Catalog db s ∧ ZonesOwned s)
      ⟨catalog_empty, zonesOwned_empty⟩ ?_ ?_ ?_ h
    · exact fun same inv => ⟨inv.1.frame same, inv.2⟩
    · intro r request env p inv allowed hp
      have step := schemaPlan_step hp
      have names : request.Plain := plain r _ allowed
      exact ⟨Plan.run_preserves (catalog_step inv.1 step),
        Plan.run_preserves (I := fun _ s => ZonesOwned s) (zonesOwned_step names inv.2 inv.1 step)⟩
    · intro db s s₀ s' inv start load
      obtain ⟨cat, same⟩ := inv.1.reload start load
      exact ⟨cat, inv.2.reload same⟩
  exact both.2

/-- What the maps of namespaces and zones say about each other. -/
structure CatalogConsistent (s : Schema) : Prop where
  namespaceNames : ∀ (name : Bytes) (id : Nat), s.namespaces.idMap[name]? = some id ↔
    ∃ info : NameSpaceInfo, s.namespaces.infoMap[id]? = some info ∧ info.namespaceName = name
  namespaceNumbers : ∀ (id : Nat) (info : NameSpaceInfo), s.namespaces.infoMap[id]? = some info →
    info.namespaceId = id ∧ 1 ≤ id ∧ id ≤ s.namespaces.maxNamespaceId
  zoneNames : ∀ (name : Bytes) (id : Nat), s.zones.idMap[name]? = some id ↔
    ∃ info : ZoneInfo, s.zones.infoMap[id]? = some info ∧
      makeZoneKey info.namespaceName info.zone = name
  zoneNumbers : ∀ (id : Nat) (info : ZoneInfo), s.zones.infoMap[id]? = some info →
    info.zoneId = id ∧ 1 ≤ id ∧ id ≤ s.zones.maxZoneId
  zoneParent : ∀ (id : Nat) (info : ZoneInfo), s.zones.infoMap[id]? = some info →
    ∃ parent : NameSpaceInfo, s.namespaces.infoMap[info.namespaceId]? = some parent ∧
      parent.namespaceName = info.namespaceName
  zoneIds : ∀ n z, s.namespaces.zoneIds.Has n z ↔
    ∃ info : ZoneInfo, s.zones.infoMap[z]? = some info ∧ info.namespaceId = n

theorem catalogConsistent {db : MetaDb} {s : Schema} (cat : Catalog db s) (owned : ZonesOwned s) :
    CatalogConsistent s where
  namespaceNames := cat.namespaces.registry.inverse
  namespaceNumbers id info found :=
    ⟨cat.namespaces.registry.carries id info found, cat.namespaces.registry.positive id info found,
      cat.namespaces.registry.bounded id info found⟩
  zoneNames := cat.zones.registry.inverse
  zoneNumbers id info found :=
    ⟨cat.zones.registry.carries id info found, cat.zones.registry.positive id info found,
      cat.zones.registry.bounded id info found⟩
  zoneParent id info found := by
    obtain ⟨parent, hparent, named, _⟩ :=
      cat.namespaces.registry.lookup (owned.parent id info found)
    exact ⟨parent, hparent, named⟩
  zoneIds := owned.zoneIds

theorem dropNamespace_success {request : DiscoveryManagerRequest} (now : Int)
    (op : request.opType = .opDropNamespace) {id : Nat}
    (found : r.memory.schema.namespaces.idMap[request.namespaceInfo.namespaceName]? = some id) :
    (onApply serialises request ⟨now, true⟩ r).2.errcode = .success ↔
      ∀ z, ¬ r.memory.schema.namespaces.zoneIds.Has id z := by
  rw [← Index.isEmpty_members]
  simp only [onApply, handle, op, dropNamespace, found]
  cases none : (r.memory.schema.namespaces.zoneIds.members id).isEmpty with
  | true => simp [Plan.map, Plan.run]
  | false => simp [Plan.map, Plan.run]

/-- In every run with plain names, whatever the database does, the catalogue of
namespaces and zones is consistent, and a namespace can be dropped exactly while it
has no zone. -/
theorem catalogue_consistent (h : Reachable serialises (fun _ e => PlainNames e) r) :
    CatalogConsistent r.memory.schema ∧
      ∀ (request : DiscoveryManagerRequest) (now : Int) (id : Nat),
        request.opType = .opDropNamespace →
        r.memory.schema.namespaces.idMap[request.namespaceInfo.namespaceName]? = some id →
        ((onApply serialises request ⟨now, true⟩ r).2.errcode = .success ↔
          ∀ (z : Nat) (info : ZoneInfo), r.memory.schema.zones.infoMap[z]? = some info →
            info.namespaceId ≠ id) := by
  have consistent : CatalogConsistent r.memory.schema :=
    catalogConsistent (reachable_catalog h) (reachable_zonesOwned (fun _ _ plain => plain) h)
  refine ⟨consistent, ?_⟩
  intro request now id op found
  rw [dropNamespace_success now op found]
  constructor
  · intro empty z info hz eq
    exact empty z ((consistent.zoneIds id z).mpr ⟨info, hz, eq⟩)
  · intro none z has
    obtain ⟨info, hz, eq⟩ := (consistent.zoneIds id z).mp has
    exact none z info hz eq

/-- A namespace and a zone are created, a second zone fails on the database, and a
fresh process loads the database. -/
def catalogEvents : List DiscoveryEvent :=
  let zone (name : String) : ZoneInfo := { namespaceName := ascii "shop", zone := ascii name }
  [.apply { opType := .opCreateNamespace, namespaceInfo := { namespaceName := ascii "shop" } }
      ⟨0, true⟩,
    .apply { opType := .opCreateZone, zoneInfo := zone "east" } ⟨0, true⟩,
    .apply { opType := .opCreateZone, zoneInfo := zone "west" } ⟨0, false⟩,
    .restart]

def dropShop : DiscoveryManagerRequest :=
  { opType := .opDropNamespace, namespaceInfo := { namespaceName := ascii "shop" } }

theorem catalogue_consistent_after_restart :
    ∃ r, catalogEvents.foldlM
        (fun r e => if PlainNames e then Replica.step (fun _ => true) r e else none) {} = some r ∧
      CatalogConsistent r.memory.schema ∧
      (onApply (fun _ => true) dropShop ⟨0, true⟩ r).2.errcode ≠ .success := by
  have run : (catalogEvents.foldlM
      (fun r e => if PlainNames e then Replica.step (fun _ => true) r e else none) {}).map
        (fun r => (r.memory.schema.namespaces.idMap[ascii "shop"]?,
          (r.memory.schema.zones.infoMap[1]?).map ZoneInfo.namespaceId)) =
      some (some 1, some 1) := by decide
  obtain ⟨r, hr, eq⟩ := Option.map_eq_some_iff.mp run
  obtain ⟨found, zone⟩ := Prod.mk.inj eq
  obtain ⟨info, hz, parent⟩ := Option.map_eq_some_iff.mp zone
  obtain ⟨consistent, drops⟩ := catalogue_consistent (Reach.From.of_checked hr)
  refine ⟨r, hr, consistent, ?_⟩
  intro success
  exact (drops dropShop 0 1 rfl found).mp success 1 info hz parent

end EA
