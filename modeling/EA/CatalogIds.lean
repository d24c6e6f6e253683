import EA.PrivilegeLevels

namespace EA

open ByteString

variable {serialises : MetaValue → Bool}

/-- The objects that the schema managers number. -/
inductive CatalogKind where
  | namespaceKind | zoneKind | servletKind
deriving DecidableEq

namespace CatalogKind

def maxIdKey : CatalogKind → Bytes
  | namespaceKind => constructMaxNamespaceIdKey
  | zoneKind => constructMaxZoneIdKey
  | servletKind => constructMaxServletIdKey

def tag : CatalogKind → UInt8
  | namespaceKind => 0x02
  | zoneKind => 0x09
  | servletKind => 0x0A

def counter : CatalogKind → Nat → SchemaRecord
  | namespaceKind => .maxNamespaceId
  | zoneKind => .maxZoneId
  | servletKind => .maxServletId

theorem counterOf (kind : CatalogKind) : CounterOf kind.tag kind.counter := by
  cases kind with
  | namespaceKind => exact .namespaces
  | zoneKind => exact .zones
  | servletKind => exact .servlets

theorem counter_entry (kind : CatalogKind) (id : Nat) :
    (kind.counter id).entry = (kind.maxIdKey, .raw (rawId id)) := by
  cases kind <;> rfl

theorem maxIdKey_injective : Function.Injective maxIdKey := by
  intro a b eq
  cases a <;> cases b <;> first | rfl | exact absurd eq (by decide)

end CatalogKind

def Schema.maxId (s : Schema) : CatalogKind → Nat
  | .namespaceKind => s.namespaces.maxNamespaceId
  | .zoneKind => s.zones.maxZoneId
  | .servletKind => s.servlets.maxServletId

/-- The stored counters are those in memory, or were never written. -/
def Counted (db : MetaDb) (s : Schema) : Prop :=
  ∀ kind : CatalogKind, db[kind.maxIdKey]? = some (.raw (rawId (s.maxId kind))) ∨
    (db[kind.maxIdKey]? = none ∧ s.maxId kind = 0)

theorem Counted.batch {db : MetaDb} {s s' : Schema} (h : Counted db s) {ops : List BatchOp}
    (records : ∀ op ∈ ops, ∀ kind : CatalogKind, op.1 ≠ kind.maxIdKey)
    (same : ∀ kind, s'.maxId kind = s.maxId kind) : Counted (ops.foldl BatchOp.apply db) s' := by
  intro kind
  rw [lookup_batch (fun op hop => records op hop kind), same]
  exact h kind

/-- A record is put and the counter of its kind is raised to its number. -/
theorem Counted.create {db : MetaDb} {s s' : Schema} (h : Counted db s) (kind : CatalogKind)
    {key : Bytes} {value : MetaValue} {id : Nat} (apart : ∀ kind : CatalogKind, key ≠ kind.maxIdKey)
    (own : s'.maxId kind = id) (others : ∀ other, other ≠ kind → s'.maxId other = s.maxId other) :
    Counted ([(key, some value), (kind.maxIdKey, some (.raw (rawId id)))].foldl
      BatchOp.apply db) s' := by
  intro other
  by_cases eq : other = kind
  · subst other
    rw [own]
    exact Or.inl (Table.lookup_insert_self ..)
  · have elsewhere : ∀ op ∈ ([(key, some value), (kind.maxIdKey, some (.raw (rawId id)))] :
        List BatchOp), op.1 ≠ other.maxIdKey := by
      simp only [List.forall_mem_cons]
      exact ⟨apart other, fun same => eq (CatalogKind.maxIdKey_injective same).symm, by simp⟩
    rw [lookup_batch elsewhere, others other eq]
    exact h other

theorem record_apart {tag : UInt8} {rest : Bytes} (ne : tag ≠ 0x01) (kind : CatalogKind) :
    0x01 :: tag :: rest ≠ kind.maxIdKey := by
  intro eq
  cases kind <;> exact ne (List.cons.inj (List.cons.inj eq).2).1

theorem counted_step {request : DiscoveryManagerRequest} {db : MetaDb} {s : Schema}
    {p : Plan Schema} (h : Counted db s) (step : SchemaStep request s p) :
    p.Preserves Counted db := by
  have namespaceApart (id : Nat) (kind : CatalogKind) : constructNamespaceKey id ≠ kind.maxIdKey :=
    record_apart (by decide) kind
  have zoneApart (id : Nat) (kind : CatalogKind) : constructZoneKey id ≠ kind.maxIdKey :=
    record_apart (by decide) kind
  have servletApart (id : Nat) (kind : CatalogKind) : constructServletKey id ≠ kind.maxIdKey :=
    record_apart (by decide) kind
  cases step with
  | refused | namespaceHasZones | zoneHasServlets => exact h
  | createNamespace info =>
    refine ⟨h, h.create .namespaceKind (namespaceApart _) rfl fun other ne => ?_⟩
    cases other <;> first | rfl | exact absurd rfl ne
  | createZone info =>
    refine ⟨h, h.create .zoneKind (zoneApart _) rfl fun other ne => ?_⟩
    cases other <;> first | rfl | exact absurd rfl ne
  | createServlet info =>
    refine ⟨h, h.create .servletKind (servletApart _) rfl fun other ne => ?_⟩
    cases other <;> first | rfl | exact absurd rfl ne
  | dropNamespace id | modifyNamespace id =>
    refine ⟨h, h.batch ?_ fun kind => by cases kind <;> rfl⟩
    simp only [List.forall_mem_singleton]
    exact namespaceApart id
  | dropZone _ id | modifyZone id =>
    refine ⟨h, h.batch ?_ fun kind => by cases kind <;> rfl⟩
    simp only [List.forall_mem_singleton]
    exact zoneApart id
  | dropServlet id | modifyServlet _ id =>
    refine ⟨h, h.batch ?_ fun kind => by cases kind <;> rfl⟩
    simp only [List.forall_mem_singleton]
    exact servletApart id

/-- The reload gives the counters back. -/
theorem Counted.reload {db : MetaDb} {s s₀ s' : Schema} (h : Counted db s)
    (recorded : SchemaRecorded db) (start : s₀ = s ∨ s₀ = {}) (load : loadSchema db s₀ = some s') :
    ∀ kind, s'.maxId kind = s.maxId kind := by
  obtain ⟨rs, lists, loaded⟩ := loadSchema_eq recorded s₀
  rw [loaded] at load
  cases Option.some.inj load
  intro kind
  have listed : ∀ id, id ∈ SchemaRecord.counters kind.tag rs ↔
      db[kind.maxIdKey]? = some (.raw (rawId id)) := by
    intro id
    rw [mem_counters lists kind.counterOf, kind.counter_entry]
  have begins : s₀.clear.maxId kind = s.maxId kind ∨ s₀.clear.maxId kind = 0 := by
    obtain ⟨namespaces, zones, servlets⟩ := counter_starts start
    cases kind
    · exact namespaces
    · exact zones
    · exact servlets
  have last := lastCounter_of_counted (h kind) listed begins
  cases kind <;> exact last

/-- The kind of object that a request creates. -/
def DiscoveryManagerRequest.creates (request : DiscoveryManagerRequest) : Option CatalogKind :=
  match request.opType with
  | .opCreateNamespace => some .namespaceKind
  | .opCreateZone => some .zoneKind
  | .opCreateServlet => some .servletKind
  | _ => none

/-- The number under which the request's object is registered. -/
def registeredId (request : DiscoveryManagerRequest) (s : Schema) : CatalogKind → Nat
  | .namespaceKind => s.namespaces.getNamespaceId request.namespaceInfo.namespaceName
  | .zoneKind => s.zones.getZoneId request.zoneKey
  | .servletKind => s.servlets.getServletId request.servletInfo.servletKey

/-- A replica with the kinds and numbers of its successful creations, the latest first. -/
structure CatalogHistory where
  replica : Replica := {}
  created : List (CatalogKind × Nat) := []

/-- The creation that a reply reports as a success. -/
def reportedCreation (request : DiscoveryManagerRequest) (out : Replica × Reply) :
    Option (CatalogKind × Nat) :=
  if out.2.errcode = .success then
    request.creates.map fun kind => (kind, registeredId request out.1.memory.schema kind)
  else none

def DiscoveryEvent.creation (serialises : MetaValue → Bool) (r : Replica) :
    DiscoveryEvent → Option (CatalogKind × Nat)
  | .apply request env => reportedCreation request (onApply serialises request env r)
  | .reload => none
  | .restart => none

def CatalogHistory.step (serialises : MetaValue → Bool) (h : CatalogHistory)
    (e : DiscoveryEvent) : Option CatalogHistory :=
  (h.replica.step serialises e).map fun r =>
    ⟨r, (e.creation serialises h.replica).toList ++ h.created⟩

def CatalogHistory.maxId (h : CatalogHistory) : CatalogKind → Nat := h.replica.memory.schema.maxId

theorem Plan.run_refuse_code {σ : Type} {dbOk : Bool} {db : MetaDb} {errmsg : String} {s : σ} :
    ((Plan.refuse .inputParamError errmsg s).run serialises dbOk db).2.errcode ≠ .success := by
  simp [Plan.run]

theorem Plan.run_write_success {σ : Type} {dbOk : Bool} {db : MetaDb} {value : Option MetaValue}
    {batch : List BatchOp} {dbError : String} {touched memory : σ}
    (h : ((Plan.write value batch dbError touched memory).run serialises dbOk db).2.errcode =
      .success) :
    ((Plan.write value batch dbError touched memory).run serialises dbOk db).1 =
      (batch.foldl BatchOp.apply db, memory) := by
  have ends := (Plan.write value batch dbError touched memory).run_ends serialises dbOk db
  generalize (Plan.write value batch dbError touched memory).run serialises dbOk db = out at ends h
  cases ends with
  | refused _ _ _ eq => simp at eq
  | failed _ _ _ _ _ _ _ _ code => exact absurd h code
  | written _ _ _ _ _ eq =>
    cases eq
    rfl

section Created

variable {request : DiscoveryManagerRequest} {s : Schema} {dbOk : Bool} {db : MetaDb}

theorem createNamespace_created
    (h : ((createNamespace request s).run serialises dbOk db).2.errcode = .success) :
    let s' := ((createNamespace request s).run serialises dbOk db).1.2
    s'.maxId .namespaceKind = s.maxId .namespaceKind + 1 ∧
      registeredId request s' .namespaceKind = s.maxId .namespaceKind + 1 := by
  unfold createNamespace at h ⊢
  dsimp only at h ⊢
  split at h
  next => exact absurd h Plan.run_refuse_code
  next absent =>
    rw [Plan.run_write_success h]
    refine ⟨rfl, ?_⟩
    simp only [registeredId, NamespaceManager.getNamespaceId, NamespaceManager.setNamespaceInfo,
      Table.lookup_insert_self]
    rfl

theorem createZone_created
    (h : ((createZone request s).run serialises dbOk db).2.errcode = .success) :
    let s' := ((createZone request s).run serialises dbOk db).1.2
    s'.maxId .zoneKind = s.maxId .zoneKind + 1 ∧
      registeredId request s' .zoneKind = s.maxId .zoneKind + 1 := by
  unfold createZone at h ⊢
  dsimp only at h ⊢
  split at h
  next => exact absurd h Plan.run_refuse_code
  next parent =>
    rw [if_neg parent]
    split at h
    next => exact absurd h Plan.run_refuse_code
    next absent =>
      rw [Plan.run_write_success h]
      refine ⟨rfl, ?_⟩
      let namespaceId := s.namespaces.getNamespaceId request.zoneInfo.namespaceName
      obtain ⟨name, zone, id, _⟩ := inheritedZone_keeps s.namespaces.infoMap[namespaceId]?
        { request.zoneInfo with zoneId := s.zones.maxZoneId + 1, namespaceId := namespaceId }
      simp only [registeredId, ZoneManager.getZoneId, ZoneManager.setZoneInfo,
        DiscoveryManagerRequest.zoneKey]
      rw [name, zone, id, Table.lookup_insert_self]
      rfl

theorem createServlet_created
    (h : ((createServlet request s).run serialises dbOk db).2.errcode = .success) :
    let s' := ((createServlet request s).run serialises dbOk db).1.2
    s'.maxId .servletKind = s.maxId .servletKind + 1 ∧
      registeredId request s' .servletKind = s.maxId .servletKind + 1 := by
  unfold createServlet at h ⊢
  dsimp only at h ⊢
  split at h
  next => exact absurd h Plan.run_refuse_code
  next owner =>
    rw [if_neg owner]
    split at h
    next => exact absurd h Plan.run_refuse_code
    next zone =>
      rw [if_neg zone]
      split at h
      next => exact absurd h Plan.run_refuse_code
      next absent =>
        rw [Plan.run_write_success h]
        refine ⟨rfl, ?_⟩
        let namespaceId := s.namespaces.getNamespaceId request.servletInfo.namespaceName
        let zoneId := s.zones.getZoneId request.servletInfo.zoneKey
        obtain ⟨space, place, name, id, _⟩ :=
          inheritedServlet_keeps s.namespaces.infoMap[namespaceId]?
            { request.servletInfo with
              servletId := s.servlets.maxServletId + 1, zoneId := zoneId
              namespaceId := namespaceId }
        have hspace : (createdServlet request s).namespaceName =
            request.servletInfo.namespaceName := space
        have hplace : (createdServlet request s).zone = request.servletInfo.zone := place
        have hname : (createdServlet request s).servletName = request.servletInfo.servletName := name
        have hid : (createdServlet request s).servletId = s.servlets.maxServletId + 1 := id
        simp only [registeredId, ServletManager.getServletId, ServletManager.setServletInfo,
          ServletInfo.servletKey, ServletInfo.zoneKey]
        rw [hspace, hplace, hname, hid, Table.lookup_insert_self]
        rfl

end Created

theorem maxId_step {request : DiscoveryManagerRequest} {s : Schema} {p : Plan Schema}
    (step : SchemaStep request s p) (db : MetaDb) (kind : CatalogKind) :
    p.Preserves (fun _ s' => s.maxId kind ≤ s'.maxId kind) db := by
  cases step with
  | refused | namespaceHasZones | zoneHasServlets => cases kind <;> exact Nat.le_refl _
  | createNamespace info named absent number =>
    refine ⟨Nat.le_refl _, ?_⟩
    cases kind <;> simp only [Schema.maxId] <;> omega
  | createZone info named parent absent number =>
    refine ⟨Nat.le_refl _, ?_⟩
    cases kind <;> simp only [Schema.maxId, NamespaceManager.addZoneId] <;> omega
  | createServlet info op built named parents absent number =>
    refine ⟨Nat.le_refl _, ?_⟩
    cases kind <;> simp only [Schema.maxId, ZoneManager.addServletId] <;> omega
  | dropNamespace | modifyNamespace | dropZone | modifyZone | dropServlet | modifyServlet =>
    constructor <;> cases kind <;> exact Nat.le_refl _

/-- What a step with this reported creation does to the counters: they stay in the
database, none falls, and the creation takes a number behind its counter. -/
structure CountersMove (r : Replica) (creation : Option (CatalogKind × Nat)) (r' : Replica) :
    Prop where
  counted : Counted r'.db r'.memory.schema
  ascend : ∀ kind, r.memory.schema.maxId kind ≤ r'.memory.schema.maxId kind
  fresh : ∀ kind id, creation = some (kind, id) →
    r.memory.schema.maxId kind < id ∧ id ≤ r'.memory.schema.maxId kind

theorem SchemaPlan.created {request : DiscoveryManagerRequest} {s : Schema} {p : Plan Schema}
    (h : schemaPlan request s = some p) {kind : CatalogKind} (creates : request.creates = some kind)
    {dbOk : Bool} {db : MetaDb} (success : (p.run serialises dbOk db).2.errcode = .success) :
    (p.run serialises dbOk db).1.2.maxId kind = s.maxId kind + 1 ∧
      registeredId request (p.run serialises dbOk db).1.2 kind = s.maxId kind + 1 := by
  unfold DiscoveryManagerRequest.creates at creates
  split at creates
  next op =>
    cases creates
    simp only [schemaPlan, op] at h
    cases h
    exact createNamespace_created success
  next op =>
    cases creates
    simp only [schemaPlan, op] at h
    cases h
    exact createZone_created success
  next op =>
    cases creates
    simp only [schemaPlan, op] at h
    cases h
    exact createServlet_created success
  next => simp at creates

theorem Counted.frame {db db' : MetaDb} {s : Schema} (same : SameRecords schemaIdentify db db')
    (h : Counted db s) : Counted db' s := by
  intro kind
  have here : schemaIdentify.isPrefixOf kind.maxIdKey = true := by cases kind <;> rfl
  rw [same _ here]
  exact h kind

theorem creates_none {request : DiscoveryManagerRequest} (now : Int) (m : Memory)
    (h : (usersPlan request m.schema m.users).isSome ∨ (configsPlan request m.configs).isSome ∨
      (instancesPlan request now m.schema m.instances).isSome ∨ request.opType = .other) :
    request.creates = none := by
  unfold usersPlan configsPlan instancesPlan at h
  cases op : request.opType <;> simp [op] at h <;> simp [DiscoveryManagerRequest.creates, op]

/-- A step of another manager group. -/
theorem countersMove_of_kept {r r' : Replica} {request : DiscoveryManagerRequest} {reply : Reply}
    (counted : Counted r.db r.memory.schema) (same : SameRecords schemaIdentify r.db r'.db)
    (schema : r'.memory.schema = r.memory.schema) (none : request.creates = none) :
    CountersMove r (reportedCreation request (r', reply)) r' where
  counted := by
    rw [schema]
    exact counted.frame same
  ascend kind := by rw [schema]
  fresh kind id eq := by simp [reportedCreation, none] at eq

theorem countersMove_applied {r : Replica} {request : DiscoveryManagerRequest} {env : Env}
    {out : Replica × Reply} (counted : Counted r.db r.memory.schema)
    (applied : Applied serialises request env r out) :
    CountersMove r (reportedCreation request out) out.1 := by
  cases applied with
  | schema p h =>
    have step := schemaPlan_step h
    refine ⟨Plan.run_preserves (counted_step counted step),
      fun kind => Plan.run_preserves (maxId_step step r.db kind), ?_⟩
    intro kind id eq
    unfold reportedCreation at eq
    split at eq
    next success =>
      obtain ⟨kind', creates, eq⟩ := Option.map_eq_some_iff.mp eq
      obtain ⟨rfl, rfl⟩ := Prod.mk.inj eq
      obtain ⟨counter, registered⟩ := SchemaPlan.created h creates success
      dsimp only at counter registered ⊢
      omega
    next => simp at eq
  | users p h =>
    have none := creates_none env.now r.memory (Or.inl (by rw [h]; rfl))
    exact countersMove_of_kept counted (Plan.run_otherTag (usersPlan_step h).tagged (by decide)) rfl
      none
  | configs p h =>
    have none := creates_none env.now r.memory (Or.inr (Or.inl (by rw [h]; rfl)))
    exact countersMove_of_kept counted (Plan.run_otherTag (configsPlan_step h).tagged (by decide))
      rfl none
  | instances p h =>
    have none := creates_none env.now r.memory (Or.inr (Or.inr (Or.inl (by rw [h]; rfl))))
    exact countersMove_of_kept counted (Plan.run_otherTag (instancesPlan_step h).tagged (by decide))
      rfl none
  | unknown op =>
    have none := creates_none env.now r.memory (Or.inr (Or.inr (Or.inr op)))
    exact countersMove_of_kept counted (fun _ _ => rfl) rfl none

theorem countersMove_loaded {r : Replica} {m m' : Memory} (recorded : SchemaRecorded r.db)
    (counted : Counted r.db r.memory.schema) (start : m.schema = r.memory.schema ∨ m.schema = {})
    (load : loadSnapshot r.db m = some m') : CountersMove r none { r with memory := m' } := by
  have same := counted.reload recorded start (loadSnapshot_eq_some load).2.1
  refine ⟨?_, fun kind => (same kind).ge, by simp⟩
  intro kind
  rw [same]
  exact counted kind

theorem countersMove {r r' : Replica} {e : DiscoveryEvent} (recorded : SchemaRecorded r.db)
    (counted : Counted r.db r.memory.schema) (step : r.step serialises e = some r') :
    CountersMove r (e.creation serialises r) r' := by
  cases e with
  | apply request env =>
    cases Option.some.inj step
    exact countersMove_applied counted (onApply_applied serialises request env r)
  | reload =>
    obtain ⟨m, load, rfl⟩ := Option.map_eq_some_iff.mp step
    exact countersMove_loaded recorded counted (Or.inl rfl) load
  | restart =>
    obtain ⟨m, load, rfl⟩ := Option.map_eq_some_iff.mp step
    exact countersMove_loaded recorded counted (Or.inr rfl) load

/-- Every right on a zone names a zone that was created before. -/
def RightsBounded (bound : Nat) (users : UserTable) : Prop :=
  ∀ (name : Bytes) (user : UserPrivilege), users[name]? = some user →
    ∀ p ∈ user.privilegeZone, p.zoneId ≤ bound

theorem Resolves.zones_bounded {db : MetaDb} {s : Schema} (cat : Catalog db s)
    {user checked : UserPrivilege} (h : Resolves s user checked) :
    ∀ z ∈ checked.privilegeZone.map PrivilegeZone.zoneId, z ≤ s.maxId .zoneKind := by
  intro z hz
  rw [h.result, List.map_map] at hz
  obtain ⟨p, hp, rfl⟩ := List.mem_map.mp hz
  obtain ⟨info, found, _⟩ :=
    cat.zones.registry.lookup (ZoneManager.lookup_of_getZoneId (h.zones p hp))
  exact cat.zones.registry.bounded _ info found

theorem usersPlan_bounded {request : DiscoveryManagerRequest} {db : MetaDb} {s : Schema}
    {users : UserTable} {p : Plan UserTable} {dbOk : Bool} (cat : Catalog db s)
    (h : RightsBounded (s.maxId .zoneKind) users) (plan : usersPlan request s users = some p) :
    RightsBounded (s.maxId .zoneKind) (p.run serialises dbOk db).1.2 := by
  refine records_keep h plan ?_
  intro user origin _ _
  have bounded : ∀ z ∈ user.privilegeZone.map PrivilegeZone.zoneId, z ≤ s.maxId .zoneKind := by
    intro z hz
    cases origin with
    | created checked _ _ ok => exact (checkAndGetForPrivilege_some ok).zones_bounded cat z hz
    | granted checked mem _ found ok =>
      rw [(grantedUser_lists checked mem).1] at hz
      rcases Keyed.mem_keys_upsertAll raisedZone_zoneId hz with old | asked
      · obtain ⟨p, hp, rfl⟩ := List.mem_map.mp old
        exact h _ mem found p hp
      · exact (checkAndGetForPrivilege_some ok).zones_bounded cat z asked
    | revoked checked mem _ found =>
      rw [(revokedUser_lists checked mem).1] at hz
      have old := (Keyed.keys_amendAll loweredZone_zoneId _ _).subset hz
      obtain ⟨p, hp, rfl⟩ := List.mem_map.mp old
      exact h _ mem found p hp
  exact fun p hp => bounded _ (List.mem_map_of_mem hp)

theorem rightsBounded_step {r r' : Replica} {e : DiscoveryEvent}
    (cat : Catalog r.db r.memory.schema) (mirrored : UsersMirrored r.db r.memory.users)
    (h : RightsBounded (r.memory.schema.maxId .zoneKind) r.memory.users)
    (step : r.step serialises e = some r') :
    RightsBounded (r.memory.schema.maxId .zoneKind) r'.memory.users := by
  have loaded : ∀ {m m' : Memory}, loadSnapshot r.db m = some m' → m'.users = r.memory.users := by
    intro m m' load
    have users := (loadSnapshot_eq_some load).1
    rw [loadUsers_eq mirrored] at users
    exact (Option.some.inj users).symm
  cases e with
  | apply request env =>
    cases Option.some.inj step
    have applied := onApply_applied serialises request env r
    generalize onApply serialises request env r = out at applied
    cases applied with
    | schema | configs | instances | unknown => exact h
    | users p plan => exact usersPlan_bounded cat h plan
  | reload =>
    obtain ⟨m, load, rfl⟩ := Option.map_eq_some_iff.mp step
    dsimp only
    rw [loaded load]
    exact h
  | restart =>
    obtain ⟨m, load, rfl⟩ := Option.map_eq_some_iff.mp step
    dsimp only
    rw [loaded load]
    exact h

theorem CatalogHistory.reachable {h : CatalogHistory}
    (run : Reach.From (CatalogHistory.step serialises) (fun _ _ => True) {} h) :
    Reachable serialises (fun _ _ => True) h.replica := by
  refine Reach.From.invariant (I := fun h : CatalogHistory =>
    Reachable serialises (fun _ _ => True) h.replica) ?_ ?_ run
  · exact Reach.From.start
  intro h e h' _ reached _ step
  obtain ⟨r, hr, rfl⟩ := Option.map_eq_some_iff.mp step
  exact reached.next trivial hr

/-- The numbers given out lie at or below their counters and differ. -/
structure IdsFresh (h : CatalogHistory) : Prop where
  counted : Counted h.replica.db h.replica.memory.schema
  below : ∀ kind id, (kind, id) ∈ h.created → id ≤ h.maxId kind
  distinct : h.created.Nodup
  rights : RightsBounded (h.maxId .zoneKind) h.replica.memory.users

theorem IdsFresh.step {h h' : CatalogHistory} {e : DiscoveryEvent}
    (reached : Reachable serialises (fun _ _ => True) h.replica) (fresh : IdsFresh h)
    (step : h.step serialises e = some h') :
    IdsFresh h' ∧ (∀ kind, h.maxId kind ≤ h'.maxId kind) ∧
      ∃ later, h'.created = later ++ h.created ∧
        ∀ kind id, (kind, id) ∈ later → h.maxId kind < id := by
  have cat := reachable_catalog reached
  have mirrored := reachable_usersMirrored reached
  obtain ⟨r, hr, rfl⟩ := Option.map_eq_some_iff.mp step
  have move := countersMove cat.recorded fresh.counted hr
  have rights : RightsBounded (r.memory.schema.maxId .zoneKind) r.memory.users := by
    intro name user found p hp
    have old := rightsBounded_step cat mirrored fresh.rights hr name user found p hp
    exact old.trans (move.ascend _)
  have new : ∀ kind id, (kind, id) ∈ (e.creation serialises h.replica).toList →
      h.maxId kind < id ∧ id ≤ r.memory.schema.maxId kind := by
    intro kind id mem
    exact move.fresh kind id (Option.mem_toList.mp mem)
  refine ⟨⟨move.counted, ?_, ?_, rights⟩, move.ascend, _, rfl, fun kind id mem => (new kind id mem).1⟩
  · intro kind id mem
    rcases List.mem_append.mp mem with mem | mem
    · exact (new kind id mem).2
    · exact (fresh.below kind id mem).trans (move.ascend kind)
  · refine List.nodup_append.mpr ⟨?_, fresh.distinct, ?_⟩
    · cases e.creation serialises h.replica <;> simp
    · rintro ⟨kind, id⟩ mem _ old rfl
      have above := (new kind id mem).1
      have below := fresh.below kind id old
      omega

theorem idsFresh {h : CatalogHistory}
    (run : Reach.From (CatalogHistory.step serialises) (fun _ _ => True) {} h) : IdsFresh h := by
  refine Reach.From.invariant (I := IdsFresh) ⟨?_, by simp, List.nodup_nil, ?_⟩ ?_ run
  · exact fun kind => Or.inr ⟨by simp, by cases kind <;> rfl⟩
  · intro name user found
    simp at found
  · intro h e h' reach fresh _ step
    exact (fresh.step (CatalogHistory.reachable reach) step).1

/-- What is created later is numbered behind the counters of now. -/
theorem created_later {h h' : CatalogHistory}
    (run : Reach.From (CatalogHistory.step serialises) (fun _ _ => True) {} h)
    (rest : Reach.From (CatalogHistory.step serialises) (fun _ _ => True) h h') :
    (∀ kind, h.maxId kind ≤ h'.maxId kind) ∧ ∃ later, h'.created = later ++ h.created ∧
      ∀ kind id, (kind, id) ∈ later → h.maxId kind < id := by
  induction rest with
  | start => exact ⟨fun _ => Nat.le_refl _, [], rfl, by simp⟩
  | next reach _ step ih =>
    obtain ⟨ascend, later, created, above⟩ := ih
    have whole := run.trans reach
    obtain ⟨_, ascend', later', created', above'⟩ :=
      (idsFresh whole).step (CatalogHistory.reachable whole) step
    refine ⟨fun kind => (ascend kind).trans (ascend' kind), later' ++ later, ?_, ?_⟩
    · rw [created', created, List.append_assoc]
    · intro kind id mem
      rcases List.mem_append.mp mem with mem | mem
      · exact (ascend kind).trans_lt (above' kind id mem)
      · exact above kind id mem

/-- No number of a namespace, zone or servlet is given out twice, over failures and
restarts. A right on a zone, also one that has outlived it, names no zone created later. -/
theorem ids_never_reused {h : CatalogHistory}
    (run : Reach.From (CatalogHistory.step serialises) (fun _ _ => True) {} h) :
    h.created.Nodup ∧ ∀ (h' : CatalogHistory) (later : List (CatalogKind × Nat)),
      Reach.From (CatalogHistory.step serialises) (fun _ _ => True) h h' →
      h'.created = later ++ h.created →
      ∀ (name : Bytes) (user : UserPrivilege), h.replica.memory.users[name]? = some user →
        ∀ p ∈ user.privilegeZone, (.zoneKind, p.zoneId) ∉ later := by
  have fresh := idsFresh run
  refine ⟨fresh.distinct, ?_⟩
  intro h' later rest created name user found p hp mem
  obtain ⟨_, later', created', above⟩ := created_later run rest
  cases List.append_cancel_right (created.symm.trans created')
  have bounded := fresh.rights name user found p hp
  have lt := above _ _ mem
  omega

def zoneRequest (opType : OpType) (zone : String) : DiscoveryManagerRequest :=
  { opType := opType, zoneInfo := { namespaceName := ascii "shop", zone := ascii zone } }

/-- A user gets a right on a zone, the zone is dropped, the create of a second one fails. -/
def dropEvents : List DiscoveryEvent :=
  let user : UserPrivilege := {
    username := ascii "ann", namespaceName := ascii "shop",
    privilegeZone := [{ zone := ascii "east", zoneRw := some .write }] }
  [.apply { opType := .opCreateNamespace, namespaceInfo := { namespaceName := ascii "shop" } }
      ⟨0, true⟩,
    .apply (zoneRequest .opCreateZone "east") ⟨0, true⟩,
    .apply { opType := .opCreateUser, userPrivilege := user } ⟨0, true⟩,
    .apply (zoneRequest .opDropZone "east") ⟨0, true⟩,
    .apply (zoneRequest .opCreateZone "west") ⟨0, false⟩]

/-- After a restart the zone of the same name is numbered anew. -/
def recreateEvents : List DiscoveryEvent :=
  [.restart, .apply (zoneRequest .opCreateZone "east") ⟨0, true⟩]

theorem ids_never_reused_after_restart : ∃ h h' : CatalogHistory,
    h'.created = [(.zoneKind, 2)] ++ h.created ∧ h.created = [(.zoneKind, 1), (.namespaceKind, 1)] ∧
      h.created.Nodup ∧ ∀ (name : Bytes) (user : UserPrivilege),
        h.replica.memory.users[name]? = some user →
          ∀ p ∈ user.privilegeZone, (.zoneKind, p.zoneId) ∉ [(CatalogKind.zoneKind, 2)] := by
  have runs : ((dropEvents.foldlM (CatalogHistory.step fun _ => true) {}).bind fun h =>
      (recreateEvents.foldlM (CatalogHistory.step fun _ => true) h).map fun h' =>
        (h.created, h'.created)) = some ([(.zoneKind, 1), (.namespaceKind, 1)],
          [(.zoneKind, 2), (.zoneKind, 1), (.namespaceKind, 1)]) := by decide
  obtain ⟨h, hr, runs⟩ := Option.bind_eq_some_iff.mp runs
  obtain ⟨h', hr', eq⟩ := Option.map_eq_some_iff.mp runs
  obtain ⟨before, after⟩ := Prod.mk.inj eq
  have run : Reach.From (CatalogHistory.step fun _ => true) (fun _ _ => True) {} h :=
    Reach.From.of_foldlM (fun _ _ _ => trivial) hr
  have rest : Reach.From (CatalogHistory.step fun _ => true) (fun _ _ => True) h h' :=
    Reach.From.of_foldlM (fun _ _ _ => trivial) hr'
  have created : h'.created = [(.zoneKind, 2)] ++ h.created := by rw [before, after]; rfl
  obtain ⟨distinct, rights⟩ := ids_never_reused run
  exact ⟨h, h', created, before, distinct, rights h' _ rest created⟩

end EA
