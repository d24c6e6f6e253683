import EA.CatalogRuns

namespace EA

open ByteString

variable {serialises : MetaValue → Bool} {ok : Replica → DiscoveryEvent → Prop} {r : Replica}

abbrev UsersMirrored (db : MetaDb) (users : UserTable) : Prop :=
  Mirror constructPrivilegeKey MetaValue.userPrivilege users db

theorem constructPrivilegeKey_of_isPrefixOf {key : Bytes}
    (h : privilegeIdentify.isPrefixOf key = true) : ∃ name, constructPrivilegeKey name = key := by
  cases key with
  | nil => simp [privilegeIdentify] at h
  | cons tag name =>
    have eq : (0x02 : UInt8) = tag := by simpa [privilegeIdentify, List.isPrefixOf] using h
    exact ⟨name, by rw [← eq]; rfl⟩

theorem UsersMirrored.frame {db db' : MetaDb} {users : UserTable}
    (same : SameRecords privilegeIdentify db db') (h : UsersMirrored db users) :
    UsersMirrored db' users :=
  Mirror.frame h fun _ => same _ rfl

theorem usersMirrored_step {request : DiscoveryManagerRequest} {db : MetaDb} {users : UserTable}
    {p : Plan UserTable} (h : UsersMirrored db users) (step : UserStep request users p) :
    p.Preserves UsersMirrored db := by
  cases step with
  | refused => exact h
  | put user => exact ⟨h, h.insert constructPrivilegeKey_injective _ user⟩
  | delete => exact ⟨h, h.erase constructPrivilegeKey_injective _⟩

/-- The name is read back from the key, and the record as a whole from the value. -/
theorem loadUsers_eq {db : MetaDb} {users : UserTable} (h : UsersMirrored db users) :
    loadUsers db = some users := by
  have reads : ∀ (m : UserTable) (e : Bytes × UserPrivilege),
      loadUser m (constructPrivilegeKey e.1, .userPrivilege e.2) = some (m.insert e.1 e.2) :=
    fun _ _ => rfl
  have recorded : ∀ key value, privilegeIdentify.isPrefixOf key = true →
      db[key]? = some value → ∃ name, constructPrivilegeKey name = key :=
    fun _ _ here _ => constructPrivilegeKey_of_isPrefixOf here
  obtain ⟨rs, listed, loaded⟩ := Replay.scan_mirror constructPrivilegeKey_injective
    (fun _ _ => MetaValue.userPrivilege.inj) h (fun _ => rfl) recorded reads ∅
  have all : Table.insertAll Prod.fst Prod.snd rs ∅ = users := by
    apply Table.insertAll_eq
    intro name user
    rw [← listed (name, user)]
    refine ⟨fun mem => ⟨(name, user), mem, rfl, rfl⟩, ?_⟩
    intro ⟨e, mem, key, value⟩
    rw [← key, ← value]
    exact mem
  rw [loadUsers, records, loaded]
  exact congrArg some all

theorem reachable_usersMirrored (h : Reachable serialises ok r) :
    UsersMirrored r.db r.memory.users := by
  refine users_invariant (I := UsersMirrored) Mirror.empty ?_ ?_ ?_ h
  · exact fun same mirrored => mirrored.frame same
  · intro r request env p mirrored _ hp
    exact Plan.run_preserves (usersMirrored_step mirrored (usersPlan_step hp))
  · intro db users users' mirrored load
    rw [loadUsers_eq mirrored] at load
    cases Option.some.inj load
    exact mirrored

/-- Operations on namespaces, zones and users with plain names, and reloads. -/
def CatalogEvent : DiscoveryEvent → Prop
  | .apply request _ => request.Plain ∧ request.opType ∈ ([.opCreateUser, .opDropUser,
      .opAddPrivilege, .opDropPrivilege, .opCreateNamespace, .opDropNamespace, .opModifyNamespace,
      .opCreateZone, .opDropZone, .opModifyZone] : List OpType)
  | .reload => True
  | .restart => True

instance (e : DiscoveryEvent) : Decidable (CatalogEvent e) :=
  match e with
  | .apply .. => inferInstanceAs (Decidable (_ ∧ _))
  | .reload => isTrue trivial
  | .restart => isTrue trivial

/-- Without servlet requests there is nothing below the zones. -/
structure NoServlets (db : MetaDb) (s : Schema) : Prop where
  ids : ∀ z v, ¬ s.zones.servletIds.Has z v
  stored : ∀ id : Nat, db[constructServletKey id]? = none

theorem NoServlets.batch {db : MetaDb} {s s' : Schema} (h : NoServlets db s) {ops : List BatchOp}
    (foreign : ∀ op ∈ ops, owner op.1 ≠ some 0x0A)
    (ids : ∀ z v, s'.zones.servletIds.Has z v → s.zones.servletIds.Has z v) :
    NoServlets (ops.foldl BatchOp.apply db) s' where
  ids z v has := h.ids z v (ids z v has)
  stored id := by
    have other : ∀ op ∈ ops, op.1 ≠ constructServletKey id := by
      intro op hop eq
      exact foreign op hop (by rw [eq]; exact owner_servletKey id)
    rw [lookup_batch other db]
    exact h.stored id

theorem noServlets_step {request : DiscoveryManagerRequest} {db : MetaDb} {s : Schema}
    {p : Plan Schema} (h : NoServlets db s)
    (other : request.opType ∉ ([.opCreateServlet, .opDropServlet, .opModifyServlet] : List OpType))
    (step : SchemaStep request s p) : p.Preserves NoServlets db := by
  have touched : ∀ id z v, (s.zones.touchServletIds id).servletIds.Has z v →
      s.zones.servletIds.Has z v := fun _ _ _ has => Index.has_touch.mp has
  cases step with
  | refused => exact h
  | namespaceHasZones => exact ⟨h.ids, h.stored⟩
  | zoneHasServlets id => exact ⟨fun z v has => h.ids z v (touched id z v has), h.stored⟩
  | createNamespace => exact ⟨h, h.batch (by simp) fun _ _ has => has⟩
  | dropNamespace => exact ⟨⟨h.ids, h.stored⟩, h.batch (by simp) fun _ _ has => has⟩
  | modifyNamespace => exact ⟨⟨h.ids, h.stored⟩, h.batch (by simp) fun _ _ has => has⟩
  | createZone => exact ⟨h, h.batch (by simp) fun _ _ has => has⟩
  | dropZone namespaceId id parent found =>
    have erased := ZoneManager.eraseZoneInfo_of_lookup (m := s.zones.touchServletIds id) found
    rw [erased]
    refine ⟨⟨fun z v has => h.ids z v (touched id z v has), h.stored⟩, h.batch (by simp) ?_⟩
    intro z v has
    exact touched id z v (Index.has_erase.mp has).1
  | modifyZone => exact ⟨⟨h.ids, h.stored⟩, h.batch (by simp) fun _ _ has => has⟩
  | createServlet _ op => exact absurd op (by simp at other; exact other.1)
  | dropServlet _ _ op => exact absurd op (by simp at other; exact other.2.1)
  | modifyServlet _ _ _ _ op => exact absurd op (by simp at other; exact other.2.2)

theorem NoServlets.loaded {db : MetaDb} {s : Schema} (h : NoServlets db s)
    {rs : List SchemaRecord} (lists : Lists rs db) (s₀ : Schema) :
    ∀ z v, ¬ (loadedSchema rs s₀.clear).zones.servletIds.Has z v := by
  intro z v has
  have rebuilt : Index.Has ∅ z v ∨
      ∃ info ∈ SchemaRecord.servlets rs, info.zoneId = z ∧ info.servletId = v :=
    Index.has_addAll.mp has
  rcases rebuilt with has | ⟨info, listed, _⟩
  · exact Index.not_has_empty z v has
  · obtain ⟨id, stored⟩ := (mem_servlets lists).mp listed
    rw [h.stored id] at stored
    simp at stored

theorem reachable_noServlets (events : ∀ r e, ok r e → CatalogEvent e)
    (h : Reachable serialises ok r) : NoServlets r.db r.memory.schema := by
  have both : Catalog r.db r.memory.schema ∧ NoServlets r.db r.memory.schema := by
    refine schema_invariant (I := fun db s => Catalog db s ∧ NoServlets db s)
      ⟨catalog_empty, ⟨fun _ _ => Index.not_has_empty _ _, by simp⟩⟩ ?_ ?_ ?_ h
    · intro db db' s same inv
      refine ⟨inv.1.frame same, inv.2.ids, fun id => ?_⟩
      rw [same _ rfl]
      exact inv.2.stored id
    · intro r request env p inv allowed hp
      have step := schemaPlan_step hp
      have event : CatalogEvent (.apply request env) := events r _ allowed
      have other : request.opType ∉
          ([.opCreateServlet, .opDropServlet, .opModifyServlet] : List OpType) := by
        intro mem
        have among := event.2
        cases op : request.opType <;> simp_all
      exact ⟨Plan.run_preserves (catalog_step inv.1 step),
        Plan.run_preserves (noServlets_step inv.2 other step)⟩
    · intro db s s₀ s' inv start load
      obtain ⟨cat, _⟩ := inv.1.reload start load
      obtain ⟨rs, lists, loaded⟩ := loadSchema_eq inv.1.recorded s₀
      rw [loaded] at load
      cases Option.some.inj load
      exact ⟨cat, inv.2.loaded lists s₀, inv.2.stored⟩
  exact both.2

/-- Two schemas whose namespaces and zones cannot be told apart. Where a set of
numbers is empty, its key may be missing. -/
structure SameNamespacesAndZones (s s' : Schema) : Prop where
  maxNamespaceId : s'.namespaces.maxNamespaceId = s.namespaces.maxNamespaceId
  namespaceIds : s'.namespaces.idMap = s.namespaces.idMap
  namespaceInfos : s'.namespaces.infoMap = s.namespaces.infoMap
  zoneIds : ∀ n, s'.namespaces.zoneIds.members n = s.namespaces.zoneIds.members n
  maxZoneId : s'.zones.maxZoneId = s.zones.maxZoneId
  zoneNames : s'.zones.idMap = s.zones.idMap
  zoneInfos : s'.zones.infoMap = s.zones.infoMap
  servletIds : ∀ z, s'.zones.servletIds.members z = s.zones.servletIds.members z

/-- A fresh replica that loads the database holds the namespaces, zones and users
of the replica that wrote it. -/
theorem snapshot_restores (h : Reachable serialises (fun _ e => CatalogEvent e) r) :
    loadUsers r.db = some r.memory.users ∧
      ∃ s, loadSchema r.db {} = some s ∧ SameNamespacesAndZones r.memory.schema s := by
  have cat := reachable_catalog h
  have owned : ZonesOwned r.memory.schema := by
    refine reachable_zonesOwned (fun _ e event => ?_) h
    cases e with
    | apply => exact event.1
    | _ => trivial
  have none := reachable_noServlets (fun _ _ event => event) h
  refine ⟨loadUsers_eq (reachable_usersMirrored h), ?_⟩
  obtain ⟨rs, lists, loaded⟩ := loadSchema_eq cat.recorded {}
  have same := cat.loaded (Or.inr rfl) lists
  refine ⟨_, loaded, same.maxNamespaceId, same.namespaceIds, same.namespaceInfos, ?_,
    same.maxZoneId, same.zoneNames, same.zoneInfos, ?_⟩
  · intro n
    apply Std.ExtTreeSet.ext_mem
    intro z
    exact (same.zoneIds n z).trans (owned.zoneIds n z).symm
  · intro z
    apply Std.ExtTreeSet.ext_mem
    intro v
    exact iff_of_false (none.loaded lists {} z v) (none.ids z v)

/-- Two zones are created, the second one is dropped, and a user gets the first. -/
def grantEvents : List DiscoveryEvent :=
  let zone (name : String) : ZoneInfo := { namespaceName := ascii "shop", zone := ascii name }
  let user : UserPrivilege := {
    username := ascii "ann", namespaceName := ascii "shop",
    privilegeZone := [{ zone := ascii "east", zoneRw := some .write }] }
  [.apply { opType := .opCreateNamespace, namespaceInfo := { namespaceName := ascii "shop" } }
      ⟨0, true⟩,
    .apply { opType := .opCreateZone, zoneInfo := zone "east" } ⟨0, true⟩,
    .apply { opType := .opCreateZone, zoneInfo := zone "west" } ⟨0, true⟩,
    .apply { opType := .opDropZone, zoneInfo := zone "west" } ⟨0, true⟩,
    .apply { opType := .opCreateUser, userPrivilege := user } ⟨0, true⟩]

theorem snapshot_restores_counter :
    ∃ r, grantEvents.foldlM
        (fun r e => if CatalogEvent e then Replica.step (fun _ => true) r e else none) {} = some r ∧
      loadUsers r.db = some r.memory.users ∧
      ∃ s, loadSchema r.db {} = some s ∧ SameNamespacesAndZones r.memory.schema s ∧
        s.zones.maxZoneId = 2 := by
  have run : (grantEvents.foldlM
      (fun r e => if CatalogEvent e then Replica.step (fun _ => true) r e else none) {}).map
        (fun r => r.memory.schema.zones.maxZoneId) = some 2 := by decide
  obtain ⟨r, hr, counter⟩ := Option.map_eq_some_iff.mp run
  obtain ⟨users, s, loaded, same⟩ := snapshot_restores (Reach.From.of_checked hr)
  exact ⟨r, hr, users, s, loaded, same, same.maxZoneId.trans counter⟩

end EA
