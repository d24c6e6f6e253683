import EA.PrivilegeLevels
import EA.ServletOrigin

namespace EA

open ByteString

variable {serialises : MetaValue → Bool} {r : Replica}

/-- The zone, as long as there is one of the number, lies in the namespace. -/
def ZoneInside (s : Schema) (namespaceId zoneId : Nat) : Prop :=
  ∀ zone : ZoneInfo, s.zones.infoMap[zoneId]? = some zone → zone.namespaceId = namespaceId

def ServletInside (s : Schema) (zoneId servletId : Nat) : Prop :=
  ∀ (v : Nat) (info : ServletInfo), s.servlets.infoMap[v]? = some info →
    info.servletId = servletId → info.zoneId = zoneId

/-- The rights of a user stay in his namespace, and those on servlets in their zones. -/
structure RightsInside (s : Schema) (user : UserPrivilege) : Prop where
  zones : ∀ p ∈ user.privilegeZone, ZoneInside s user.namespaceId p.zoneId
  servlets : ∀ p ∈ user.privilegeServlet, ZoneInside s user.namespaceId p.zoneId ∧
    (p.zoneId ∈ s.zones.infoMap → ServletInside s p.zoneId p.servletId)

/-- The objects that a request names lie in the namespace, the servlets in their zones. -/
def NamesInside (s : Schema) (namespaceId : Nat) (user : UserPrivilege) : Prop :=
  (∀ p ∈ user.privilegeZone,
    ZoneInside s namespaceId (zoneNamed s user.namespaceName p.zone)) ∧
  ∀ p ∈ user.privilegeServlet,
    ZoneInside s namespaceId (zoneNamed s user.namespaceName p.zone) ∧
    ServletInside s (zoneNamed s user.namespaceName p.zone)
      (servletNamed s user.namespaceName p.zone p.servletName)

/-- A right that is granted, and whose record is written, is on an object of the user's
namespace: the one of the request for a new user, else the one on record. -/
def GrantsInside (serialises : MetaValue → Bool) (r : Replica) : DiscoveryEvent → Prop
  | .apply request env =>
    let s := r.memory.schema
    ∀ checked, checkAndGetForPrivilege s request.userPrivilege = some checked → env.dbOk = true →
      (request.opType = .opCreateUser → request.userPrivilege.username ∉ r.memory.users →
        serialises (.userPrivilege { checked with version := 1 }) = true →
        NamesInside s (s.namespaces.getNamespaceId request.userPrivilege.namespaceName)
          request.userPrivilege) ∧
      (request.opType = .opAddPrivilege → ∀ mem : UserPrivilege,
        r.memory.users[request.userPrivilege.username]? = some mem →
        serialises (.userPrivilege (grantedUser checked mem)) = true →
        NamesInside s mem.namespaceId request.userPrivilege)
  | .reload => True
  | .restart => True

/-- What stays true of a zone right while zones come and go. -/
def ZoneRightKept (s : Schema) (namespaceId zoneId : Nat) : Prop :=
  zoneId ≤ s.zones.maxZoneId ∧ ZoneInside s namespaceId zoneId

/-- What stays true of a servlet right: no servlet of that number is known elsewhere. -/
def ServletRightKept (db : MetaDb) (s : Schema) (place : Nat × Nat) : Prop :=
  place.2 ≠ 0 ∧ place.2 ≤ s.servlets.maxServletId ∧
    ∀ info, KnownServlet db s info → info.servletId = place.2 → info.zoneId = place.1

structure UserKept (db : MetaDb) (s : Schema) (user : UserPrivilege) : Prop where
  zones : ∀ z ∈ user.privilegeZone.map PrivilegeZone.zoneId, ZoneRightKept s user.namespaceId z
  servlets : ∀ place ∈ user.privilegeServlet.map PrivilegeServlet.place,
    ZoneRightKept s user.namespaceId place.1 ∧ ServletRightKept db s place

theorem UserKept.inside {db : MetaDb} {s : Schema} {user : UserPrivilege}
    (h : UserKept db s user) : RightsInside s user where
  zones p hp := (h.zones _ (List.mem_map_of_mem hp)).2
  servlets p hp := by
    obtain ⟨zone, _, _, known⟩ := h.servlets _ (List.mem_map_of_mem hp)
    exact ⟨zone.2, fun _ v info found => known info (Or.inl ⟨v, found⟩)⟩

/-- What a request does to the zones: each keeps its namespace, new ones get new numbers. -/
structure ZonesMove (s s' : Schema) : Prop where
  ascend : s.zones.maxZoneId ≤ s'.zones.maxZoneId
  zones : ∀ (z : Nat) (zone : ZoneInfo), s'.zones.infoMap[z]? = some zone →
    s.zones.maxZoneId < z ∨ ∃ old : ZoneInfo, s.zones.infoMap[z]? = some old ∧
      zone.namespaceId = old.namespaceId

theorem ZonesMove.of_same {s s' : Schema} (bound : s'.zones.maxZoneId = s.zones.maxZoneId)
    (infoMap : s'.zones.infoMap = s.zones.infoMap) : ZonesMove s s' where
  ascend := bound.ge
  zones _ zone found := Or.inr ⟨zone, infoMap ▸ found, rfl⟩

theorem zonesMove_step {request : DiscoveryManagerRequest} {db : MetaDb} {s : Schema}
    {p : Plan Schema} (cat : Catalog db s) (step : SchemaStep request s p) :
    p.Preserves (fun _ s' => ZonesMove s s') db := by
  cases step with
  | refused | namespaceHasZones | zoneHasServlets => exact .of_same rfl rfl
  | createNamespace | dropNamespace | modifyNamespace | createServlet | dropServlet
  | modifyServlet => exact ⟨.of_same rfl rfl, .of_same rfl rfl⟩
  | createZone info named parent absent number =>
    refine ⟨.of_same rfl rfl, ?_, fun z zone found => ?_⟩
    · exact (Nat.le_succ _).trans_eq number.symm
    · rcases Table.lookup_insert_some found with ⟨new, _⟩ | ⟨_, old⟩
      · exact Or.inl (by omega)
      · exact Or.inr ⟨zone, old, rfl⟩
  | dropZone ownerId id parent found =>
    have erased := ZoneManager.eraseZoneInfo_of_lookup (m := s.zones.touchServletIds id) found
    refine ⟨.of_same rfl rfl, ?_⟩
    rw [erased]
    exact ⟨Nat.le_refl _, fun z zone here => Or.inr ⟨zone, (Table.lookup_erase_some here).2, rfl⟩⟩
  | modifyZone id old info found read sameNames sameIds =>
    have here := cat.getD_zone found read
    have own := cat.zones.registry.carries id old here
    rw [ZoneManager.touchInfo_of_lookup here]
    refine ⟨.of_same rfl rfl, Nat.le_refl _, fun z zone after => ?_⟩
    rcases Table.lookup_insert_some after with ⟨eq, rfl⟩ | ⟨_, before⟩
    · have same : id = z := by omega
      exact Or.inr ⟨old, same ▸ here, sameIds.2⟩
    · exact Or.inr ⟨zone, before, rfl⟩

theorem ZoneRightKept.of_move {s s' : Schema} {namespaceId zoneId : Nat}
    (h : ZoneRightKept s namespaceId zoneId) (move : ZonesMove s s') :
    ZoneRightKept s' namespaceId zoneId := by
  obtain ⟨bounded, inside⟩ := h
  refine ⟨bounded.trans move.ascend, fun zone found => ?_⟩
  rcases move.zones zoneId zone found with new | ⟨old, before, same⟩
  · omega
  · exact same.trans (inside old before)

theorem ServletRightKept.of_origin {request : DiscoveryManagerRequest} {db db' : MetaDb}
    {s s' : Schema} {place : Nat × Nat} (h : ServletRightKept db s place)
    (ascend : s.servlets.maxServletId ≤ s'.servlets.maxServletId)
    (known : ∀ info, KnownServlet db' s' info → ServletOrigin request db s s' info) :
    ServletRightKept db' s' place := by
  obtain ⟨nonzero, bounded, inside⟩ := h
  refine ⟨nonzero, by omega, fun info hinfo number => ?_⟩
  cases known info hinfo with
  | known old before same =>
    have zone : info.zoneId = old.zoneId := by
      have here := congrArg ServletInfo.zoneId same
      exact here
    have id := identity_servletId same
    exact zone.trans (inside old before (by omega))
  | blank same =>
    have zero : info.servletId = 0 := identity_servletId (b := default) same
    omega
  | created _ _ _ new => omega

def UsersKept (db : MetaDb) (s : Schema) (users : UserTable) : Prop :=
  ∀ (name : Bytes) (user : UserPrivilege), users[name]? = some user → UserKept db s user

theorem UsersKept.of_move {db db' : MetaDb} {s s' : Schema} {users : UserTable}
    (h : UsersKept db s users) (zones : ZonesMove s s')
    (servlets : ∀ place, ServletRightKept db s place → ServletRightKept db' s' place) :
    UsersKept db' s' users := by
  intro name user found
  obtain ⟨zoneRights, servletRights⟩ := h name user found
  refine ⟨fun z hz => (zoneRights z hz).of_move zones, fun place hplace => ?_⟩
  obtain ⟨zone, servlet⟩ := servletRights place hplace
  exact ⟨zone.of_move zones, servlets place servlet⟩

theorem UsersKept.frame {db db' : MetaDb} {s : Schema} {users : UserTable}
    (same : SameRecords schemaIdentify db db') (h : UsersKept db s users) :
    UsersKept db' s users := by
  refine h.of_move (.of_same rfl rfl) ?_
  intro place ⟨nonzero, bounded, inside⟩
  exact ⟨nonzero, bounded, fun info known =>
    inside info (known.of_same rfl fun _ => same _ rfl)⟩

theorem UsersKept.schema_step {request : DiscoveryManagerRequest} {db : MetaDb} {s : Schema}
    {users : UserTable} {p : Plan Schema} (h : UsersKept db s users) (cat : Catalog db s)
    (step : SchemaStep request s p) : p.Preserves (fun db' s' => UsersKept db' s' users) db := by
  have facts := ((step.known db).and (maxId_step step db .servletKind)).and
    (zonesMove_step cat step)
  refine facts.imp ?_
  intro db' s' ⟨⟨known, ascend⟩, move⟩
  exact h.of_move move fun place kept => kept.of_origin ascend known

/-- What a request names inside the namespace stays right. -/
theorem namesInside_kept {db : MetaDb} {s : Schema} (cat : Catalog db s)
    (tracked : ServletsTracked db s) {user checked : UserPrivilege}
    (resolves : Resolves s user checked) {namespaceId : Nat}
    (inside : NamesInside s namespaceId user) :
    (∀ z ∈ checked.privilegeZone.map PrivilegeZone.zoneId, ZoneRightKept s namespaceId z) ∧
      ∀ place ∈ checked.privilegeServlet.map PrivilegeServlet.place,
        ZoneRightKept s namespaceId place.1 ∧ ServletRightKept db s place := by
  have zoneKept : ∀ {zone : Bytes}, zoneNamed s user.namespaceName zone ≠ 0 →
      ZoneInside s namespaceId (zoneNamed s user.namespaceName zone) →
      ZoneRightKept s namespaceId (zoneNamed s user.namespaceName zone) := by
    intro zone known within
    obtain ⟨info, here, _⟩ := cat.zones.registry.lookup (ZoneManager.lookup_of_getZoneId known)
    exact ⟨cat.zones.registry.bounded _ info here, within⟩
  rw [resolves.result]
  constructor
  · intro z hz
    simp only [List.map_map, List.mem_map] at hz
    obtain ⟨p, hp, rfl⟩ := hz
    exact zoneKept (resolves.zones p hp) (inside.1 p hp)
  · intro place hplace
    simp only [List.map_map, List.mem_map] at hplace
    obtain ⟨p, hp, rfl⟩ := hplace
    obtain ⟨zone, servlet⟩ := resolves.servlets p hp
    obtain ⟨within, lies⟩ := inside.2 p hp
    have found := Table.lookup_of_getD_ne servlet
    rcases tracked.named _ _ found with zero | ⟨info, here, number, _⟩
    · exact absurd zero servlet
    refine ⟨zoneKept zone within, servlet, ?_, fun other known same => ?_⟩
    · have le := tracked.bounded info (Or.inl ⟨_, here⟩)
      exact (Nat.le_of_eq number.symm).trans le
    · have nonzero : other.servletId ≠ 0 := fun zero => servlet (same.symm.trans zero)
      have alike := tracked.alike other info known (Or.inl ⟨_, here⟩)
        (same.trans number.symm) nonzero
      have zoneId := congrArg ServletInfo.zoneId alike
      exact Eq.trans zoneId (lies _ info here number)

theorem grantedUser_kept {db : MetaDb} {s : Schema} {checked mem : UserPrivilege}
    (h : UserKept db s mem)
    (new : (∀ z ∈ checked.privilegeZone.map PrivilegeZone.zoneId,
        ZoneRightKept s mem.namespaceId z) ∧
      ∀ place ∈ checked.privilegeServlet.map PrivilegeServlet.place,
        ZoneRightKept s mem.namespaceId place.1 ∧ ServletRightKept db s place) :
    UserKept db s (grantedUser checked mem) := by
  obtain ⟨zones, servlets, _⟩ := grantedUser_lists checked mem
  constructor
  case zones =>
    intro z hz
    rw [zones] at hz
    rcases Keyed.mem_keys_upsertAll raisedZone_zoneId hz with old | asked
    · exact h.zones z old
    · exact new.1 z asked
  case servlets =>
    intro place hplace
    rw [servlets] at hplace
    rcases Keyed.mem_keys_upsertAll raisedServlet_place hplace with old | asked
    · exact h.servlets place old
    · exact new.2 place asked

theorem revokedUser_kept {db : MetaDb} {s : Schema} {mem : UserPrivilege} (checked : UserPrivilege)
    (h : UserKept db s mem) : UserKept db s (revokedUser checked mem) := by
  obtain ⟨zones, servlets, _⟩ := revokedUser_lists checked mem
  constructor
  case zones =>
    intro z hz
    rw [zones] at hz
    exact h.zones z ((Keyed.keys_amendAll loweredZone_zoneId _ _).subset hz)
  case servlets =>
    intro place hplace
    rw [servlets] at hplace
    exact h.servlets place ((Keyed.keys_amendAll loweredServlet_place _ _).subset hplace)

theorem UsersKept.users_step {request : DiscoveryManagerRequest} {env : Env} {p : Plan UserTable}
    (h : UsersKept r.db r.memory.schema r.memory.users) (cat : Catalog r.db r.memory.schema)
    (tracked : ServletsTracked r.db r.memory.schema)
    (safe : GrantsInside serialises r (.apply request env))
    (plan : usersPlan request r.memory.schema r.memory.users = some p) :
    UsersKept r.db r.memory.schema (p.run serialises env.dbOk r.db).1.2 := by
  refine records_keep h plan ?_
  intro user origin fits works
  cases origin with
  | created checked op absent ok =>
    have resolves := checkAndGetForPrivilege_some ok
    have inside := (safe checked ok works).1 op absent fits
    obtain ⟨zones, servlets⟩ := namesInside_kept cat tracked resolves inside
    have owner : checked.namespaceId =
        r.memory.schema.namespaces.getNamespaceId request.userPrivilege.namespaceName := by
      rw [resolves.result]
    rw [← owner] at zones servlets
    exact ⟨zones, servlets⟩
  | granted checked mem op found ok =>
    have inside := (safe checked ok works).2 op mem found fits
    have new := namesInside_kept cat tracked (checkAndGetForPrivilege_some ok) inside
    exact grantedUser_kept (h _ mem found) new
  | revoked checked mem _ found => exact revokedUser_kept checked (h _ mem found)

/-- What the runs keep of users and catalogue together. -/
structure ScopeKept (db : MetaDb) (m : Memory) : Prop where
  catalog : Catalog db m.schema
  tracked : ServletsTracked db m.schema
  mirrored : UsersMirrored db m.users
  users : UsersKept db m.schema m.users

theorem ScopeKept.frame {db db' : MetaDb} {m m' : Memory} (h : ScopeKept db m)
    (schemaRecords : SameRecords schemaIdentify db db')
    (userRecords : SameRecords privilegeIdentify db db') (schema : m'.schema = m.schema)
    (users : m'.users = m.users) : ScopeKept db' m' where
  catalog := by
    rw [schema]
    exact h.catalog.frame schemaRecords
  tracked := by
    rw [schema]
    exact h.tracked.frame schemaRecords
  mirrored := by
    rw [users]
    exact h.mirrored.frame userRecords
  users := by
    rw [schema, users]
    exact h.users.frame schemaRecords

theorem ScopeKept.applied {request : DiscoveryManagerRequest} {env : Env} {out : Replica × Reply}
    (h : ScopeKept r.db r.memory) (safe : GrantsInside serialises r (.apply request env))
    (applied : Applied serialises request env r out) : ScopeKept out.1.db out.1.memory := by
  cases applied with
  | schema p plan =>
    have step := schemaPlan_step plan
    constructor
    case catalog => exact Plan.run_preserves (catalog_step h.catalog step)
    case tracked => exact Plan.run_preserves (servletsTracked_step h.tracked h.catalog step)
    case mirrored => exact h.mirrored.frame (Plan.run_otherTag step.tagged (by decide))
    case users =>
      exact Plan.run_preserves (I := fun db s => UsersKept db s r.memory.users)
        (h.users.schema_step h.catalog step)
  | users p plan =>
    have step := usersPlan_step plan
    have elsewhere : SameRecords schemaIdentify r.db (p.run serialises env.dbOk r.db).1.1 :=
      Plan.run_otherTag step.tagged (by decide)
    constructor
    case catalog => exact h.catalog.frame elsewhere
    case tracked => exact h.tracked.frame elsewhere
    case mirrored => exact Plan.run_preserves (usersMirrored_step h.mirrored step)
    case users => exact (h.users.users_step h.catalog h.tracked safe plan).frame elsewhere
  | configs p plan =>
    have tagged := (configsPlan_step plan).tagged
    exact h.frame (Plan.run_otherTag tagged (by decide)) (Plan.run_otherTag tagged (by decide))
      rfl rfl
  | instances p plan =>
    have tagged := (instancesPlan_step plan).tagged
    exact h.frame (Plan.run_otherTag tagged (by decide)) (Plan.run_otherTag tagged (by decide))
      rfl rfl
  | unknown => exact h

theorem ScopeKept.reload {db : MetaDb} {m m₀ m' : Memory} (h : ScopeKept db m)
    (start : m₀.schema = m.schema ∨ m₀.schema = {}) (load : loadSnapshot db m₀ = some m') :
    ScopeKept db m' := by
  obtain ⟨loadedUsers, loadedSchema, _⟩ := loadSnapshot_eq_some load
  obtain ⟨cat, same⟩ := h.catalog.reload start loadedSchema
  have counters := h.tracked.counted.reload h.catalog.recorded start loadedSchema
  have users : m'.users = m.users := by
    rw [loadUsers_eq h.mirrored] at loadedUsers
    exact (Option.some.inj loadedUsers).symm
  constructor
  case catalog => exact cat
  case tracked => exact h.tracked.reload h.catalog start loadedSchema
  case mirrored =>
    rw [users]
    exact h.mirrored
  case users =>
    rw [users]
    refine h.users.of_move (.of_same same.maxZoneId same.zoneInfos) ?_
    intro place ⟨nonzero, bounded, inside⟩
    refine ⟨nonzero, ?_, fun info known =>
      inside info (known.of_reload h.catalog.recorded loadedSchema)⟩
    exact bounded.trans_eq (counters .servletKind).symm

/-- As long as every right is granted on an object of the user's namespace, all rights
stay there, whatever becomes of namespaces, zones and servlets. -/
theorem rights_inside {r : Replica} (h : Reachable serialises (GrantsInside serialises) r)
    (name : Bytes) (user : UserPrivilege) (found : r.memory.users[name]? = some user) :
    RightsInside r.memory.schema user := by
  have kept : ScopeKept r.db r.memory := by
    refine memory_invariant (I := ScopeKept) ?_ ?_ ?_ h
    · exact ⟨catalog_empty, servletsTracked_empty, Mirror.empty, fun _ _ none => by simp at none⟩
    · exact fun r request env out inv safe applied => inv.applied safe applied
    · intro db m m₀ m' inv start load
      refine inv.reload ?_ load
      rcases start with rfl | rfl
      · exact Or.inl rfl
      · exact Or.inr rfl
  exact (kept.users name user found).inside

/-- A user is created with a right on the one zone of his namespace. -/
theorem rights_inside_of_created : ∃ (r : Replica) (user : UserPrivilege),
    r.memory.users[ascii "ann"]? = some user ∧ user.privilegeZone ≠ [] ∧
      RightsInside r.memory.schema user := by
  let create := userEvent .opCreateUser (zoneRights [("east", .read)])
  have run : ([namespaceEvent "shop", zoneEvent .opCreateZone "shop" "east"].foldlM
      (Replica.step fun _ => true) {}).bind (fun r => (r.step (fun _ => true) create).map fun r' =>
        (zoneNamed r.memory.schema (ascii "shop") (ascii "east"),
          r.memory.schema.namespaces.getNamespaceId (ascii "shop"),
          r.memory.schema.zones.infoMap[1]?.map ZoneInfo.namespaceId,
          r'.memory.users[ascii "ann"]?.map fun user => decide (user.privilegeZone ≠ []))) =
      some (1, 1, some 1, some true) := by decide
  obtain ⟨r, hr, run⟩ := Option.bind_eq_some_iff.mp run
  obtain ⟨r', hr', eq⟩ := Option.map_eq_some_iff.mp run
  obtain ⟨named, eq⟩ := Prod.mk.inj eq
  obtain ⟨owner, eq⟩ := Prod.mk.inj eq
  obtain ⟨zone, found⟩ := Prod.mk.inj eq
  obtain ⟨info, here, inside⟩ := Option.map_eq_some_iff.mp zone
  obtain ⟨user, found, nonempty⟩ := Option.map_eq_some_iff.mp found
  have before : Reachable (fun _ => true) (GrantsInside fun _ => true) r := by
    refine Reach.From.of_foldlM ?_ hr
    intro r
    simp only [List.forall_mem_cons]
    refine ⟨fun _ _ _ => ⟨fun op => ?_, fun op => ?_⟩,
      fun _ _ _ => ⟨fun op => ?_, fun op => ?_⟩, by simp⟩
    all_goals cases op
  have allowed : GrantsInside (fun _ => true) r create := by
    intro checked _ _
    refine ⟨fun _ _ _ => ⟨?_, fun p hp => by cases hp⟩, fun op => by cases op⟩
    intro p hp other hother
    rw [List.mem_singleton.mp hp] at hother
    have eq : other = info := by
      have same : r.memory.schema.zones.infoMap[1]? = some other := by rwa [← named]
      exact Option.some.inj (same.symm.trans here)
    rw [eq, inside]
    exact owner.symm
  have reached := before.next allowed hr'
  exact ⟨r', user, found, of_decide_eq_true nonempty, rights_inside reached _ user found⟩

/-- A right of another namespace is added to a user's record. -/
theorem right_outside :
    ¬ ∀ r, Reachable (fun _ => true) (fun _ e => PlainNames e) r →
      ∀ (name : Bytes) (user : UserPrivilege), r.memory.users[name]? = some user →
        RightsInside r.memory.schema user := by
  intro inside
  let abroad : UserPrivilege :=
    { username := ascii "ann", namespaceName := ascii "mart"
      privilegeZone := [{ zone := ascii "west", zoneRw := some .write }] }
  have run : ([namespaceEvent "shop", namespaceEvent "mart", zoneEvent .opCreateZone "mart" "west",
      userEvent .opCreateUser (zoneRights []), userEvent .opAddPrivilege abroad].foldlM
        (fun r e => if PlainNames e then Replica.step (fun _ => true) r e else none) {}).bind
      (fun r => (r.memory.users[ascii "ann"]?).map fun user =>
        (user.namespaceId, user.privilegeZone.map PrivilegeZone.zoneId,
          r.memory.schema.zones.infoMap[1]?.map ZoneInfo.namespaceId)) =
      some (1, [1], some 2) := by decide
  obtain ⟨r, hr, run⟩ := Option.bind_eq_some_iff.mp run
  obtain ⟨user, found, eq⟩ := Option.map_eq_some_iff.mp run
  obtain ⟨owner, eq⟩ := Prod.mk.inj eq
  obtain ⟨rights, zone⟩ := Prod.mk.inj eq
  obtain ⟨info, here, lies⟩ := Option.map_eq_some_iff.mp zone
  obtain ⟨p, hp, number⟩ := List.mem_map.mp (rights ▸ List.mem_singleton_self 1)
  have within := (inside r (Reach.From.of_checked hr) _ user found).zones p hp
  rw [number] at within
  have same := within info here
  omega

end EA
