import EA.DiscoveryDirectory
import EA.FlattenPrivileges

namespace EA

open ByteString

variable {serialises : MetaValue → Bool} {r : Replica}

/-- Runs of operations on namespaces, zones and users. -/
abbrev CatalogReachable (serialises : MetaValue → Bool) (r : Replica) : Prop :=
  Reachable serialises (fun _ e => CatalogEvent e) r

theorem plainNames_of_catalogEvent {e : DiscoveryEvent} (event : CatalogEvent e) : PlainNames e := by
  cases e with
  | apply => exact event.1
  | _ => trivial

theorem noServletIds_step {request : DiscoveryManagerRequest} {s : Schema} {p : Plan Schema}
    (h : s.servlets.idMap = ∅)
    (other : request.opType ∉ ([.opCreateServlet, .opDropServlet, .opModifyServlet] : List OpType))
    (step : SchemaStep request s p) (db : MetaDb) :
    p.Preserves (fun _ s => s.servlets.idMap = ∅) db := by
  cases step with
  | createServlet _ op => exact absurd op (by simp at other; exact other.1)
  | dropServlet _ _ op => exact absurd op (by simp at other; exact other.2.1)
  | modifyServlet _ _ _ _ op => exact absurd op (by simp at other; exact other.2.2)
  | refused | namespaceHasZones | zoneHasServlets => exact h
  | _ => exact ⟨h, h⟩

theorem noServletIds_loaded {db : MetaDb} {s s₀ s' : Schema} (none : NoServlets db s)
    (recorded : SchemaRecorded db) (load : loadSchema db s₀ = some s') : s'.servlets.idMap = ∅ := by
  obtain ⟨rs, lists, loaded⟩ := loadSchema_eq recorded s₀
  rw [loaded] at load
  cases Option.some.inj load
  have empty : SchemaRecord.servlets rs = [] := by
    apply List.eq_nil_iff_forall_not_mem.mpr
    intro info listed
    obtain ⟨id, stored⟩ := (mem_servlets lists).mp listed
    rw [none.stored id] at stored
    simp at stored
  dsimp only [loadedSchema]
  rw [empty]
  rfl

theorem catalogEvent_servlets {request : DiscoveryManagerRequest} {env : Env}
    (event : CatalogEvent (.apply request env)) : request.opType ∉
      ([.opCreateServlet, .opDropServlet, .opModifyServlet] : List OpType) := by
  intro mem
  have among := event.2
  cases op : request.opType <;> simp_all

theorem reachable_noServletIds (h : CatalogReachable serialises r) :
    r.memory.schema.servlets.idMap = ∅ := by
  refine Reach.From.invariant (I := fun r => r.memory.schema.servlets.idMap = ∅) rfl ?_ h
  intro r e r' reach none allowed step
  have servlets := reachable_noServlets (fun _ _ event => event) reach
  have recorded := (reachable_catalog reach).recorded
  cases e with
  | apply request env =>
    cases Option.some.inj step
    have applied := onApply_applied serialises request env r
    generalize onApply serialises request env r = out at applied
    cases applied with
    | schema p plan =>
      exact Plan.run_preserves (I := fun _ (s : Schema) => s.servlets.idMap = ∅)
        (noServletIds_step none (catalogEvent_servlets allowed) (schemaPlan_step plan) r.db)
    | users | configs | instances | unknown => exact none
  | reload =>
    obtain ⟨m, load, rfl⟩ := Option.map_eq_some_iff.mp step
    exact noServletIds_loaded servlets recorded (loadSnapshot_eq_some load).2.1
  | restart =>
    obtain ⟨m, load, rfl⟩ := Option.map_eq_some_iff.mp step
    exact noServletIds_loaded servlets recorded (loadSnapshot_eq_some load).2.1

/-- What the decisions of the replica rest on. -/
structure Directed (db : MetaDb) (s : Schema) : Prop where
  catalog : Catalog db s
  owned : ZonesOwned s
  noServlets : NoServlets db s
  noServletIds : s.servlets.idMap = ∅

theorem reachable_directed (h : CatalogReachable serialises r) :
    Directed r.db r.memory.schema where
  catalog := reachable_catalog h
  owned := reachable_zonesOwned (fun _ _ event => plainNames_of_catalogEvent event) h
  noServlets := reachable_noServlets (fun _ _ event => event) h
  noServletIds := reachable_noServletIds h

/-- Nothing is stored under the tags of configs and instances. -/
structure CatalogOnly (db : MetaDb) : Prop where
  configs : ∀ key : Bytes, configIdentify.isPrefixOf key = true → db[key]? = none
  instances : ∀ key : Bytes, discoveryIdentify.isPrefixOf key = true → db[key]? = none

theorem reachable_catalogOnly (h : CatalogReachable serialises r) : CatalogOnly r.db := by
  constructor
  · refine configs_invariant (I := fun db _ => ∀ key : Bytes,
      configIdentify.isPrefixOf key = true → db[key]? = none) (by simp) ?_ ?_ ?_ h
    · intro db db' _ same none key here
      exact (same key here).trans (none key here)
    · intro r request env p none allowed plan
      have among := allowed.2
      unfold configsPlan at plan
      cases op : request.opType <;> simp_all
    · exact fun db _ _ none _ => none
  · refine instances_invariant (I := fun db _ => ∀ key : Bytes,
      discoveryIdentify.isPrefixOf key = true → db[key]? = none) (by simp) ?_ ?_ ?_ h
    · intro db db' _ same none key here
      exact (same key here).trans (none key here)
    · intro r request env p none allowed plan
      have among := allowed.2
      unfold instancesPlan at plan
      cases op : request.opType <;> simp_all
    · exact fun db _ _ none _ => none

theorem records_eq_nil {identify : Bytes} {db : MetaDb}
    (none : ∀ key : Bytes, identify.isPrefixOf key = true → db[key]? = none) :
    records identify db = [] := by
  apply List.eq_nil_iff_forall_not_mem.mpr
  rintro ⟨key, value⟩ mem
  obtain ⟨stored, here⟩ := Table.mem_scan.mp mem
  rw [none key here] at stored
  simp at stored

/-- Every load of the database succeeds, and what it leaves in memory says the same. -/
theorem load_agrees (h : CatalogReachable serialises r) {d : Directory} (agrees : Agrees r.memory d)
    {m : Memory} (start : m.schema = r.memory.schema ∨ m.schema = {}) :
    ∃ m', loadSnapshot r.db m = some m' ∧ Agrees m' d := by
  have directed := reachable_directed h
  have only := reachable_catalogOnly h
  obtain ⟨rs, _, schema⟩ := loadSchema_eq directed.catalog.recorded m.schema
  have users := loadUsers_eq (reachable_usersMirrored h)
  have configs : loadConfigs r.db = some ∅ := by
    rw [loadConfigs, records_eq_nil only.configs]
    rfl
  have instances : loadInstances r.db = some {} := by
    rw [loadInstances, records_eq_nil only.instances]
    rfl
  obtain ⟨_, same⟩ := directed.catalog.reload start schema
  refine ⟨⟨loadedSchema rs m.schema.clear, r.memory.users, ∅, {}⟩, ?_, ?_⟩
  · simp [loadSnapshot, users, schema, configs, instances]
  · constructor
    case namespaces =>
      intro name
      rw [← agrees.namespaces, NamespaceManager.find, NamespaceManager.find, same.namespaceIds,
        same.namespaceInfos]
    case zones =>
      intro namespaceName zone
      rw [← agrees.zones, ZoneManager.find, ZoneManager.find, same.zoneNames, same.zoneInfos]
    case users => exact agrees.users
    case namespacesMade => exact same.maxNamespaceId.trans agrees.namespacesMade
    case zonesMade => exact same.maxZoneId.trans agrees.zonesMade

section Requests

variable {request : DiscoveryManagerRequest} {db : MetaDb} {m : Memory} {d : Directory}

theorem schemaPlan_follows {env : Env} (event : CatalogEvent (.apply request env))
    (directed : Directed db m.schema) (agrees : Agrees m d) {p : Plan Schema}
    (plan : schemaPlan request m.schema = some p) :
    Executes (fun s => Agrees { m with schema := s }) d p (d.verdict request) := by
  have cat := directed.catalog
  have servlets := catalogEvent_servlets event
  unfold schemaPlan at plan
  unfold Directory.verdict
  cases op : request.opType with
  | opCreateNamespace =>
    simp only [op] at plan ⊢
    exact Option.some.inj plan ▸ createNamespace_follows request agrees cat
  | opDropNamespace =>
    simp only [op] at plan ⊢
    exact Option.some.inj plan ▸ dropNamespace_follows request agrees cat directed.owned event.1
  | opModifyNamespace =>
    simp only [op] at plan ⊢
    exact Option.some.inj plan ▸ modifyNamespace_follows request agrees cat
  | opCreateZone =>
    simp only [op] at plan ⊢
    exact Option.some.inj plan ▸ createZone_follows request agrees cat event.1
  | opDropZone =>
    simp only [op] at plan ⊢
    exact Option.some.inj plan ▸ dropZone_follows request agrees cat directed.noServlets event.1
  | opModifyZone =>
    simp only [op] at plan ⊢
    exact Option.some.inj plan ▸ modifyZone_follows request agrees cat event.1
  | opCreateServlet | opDropServlet | opModifyServlet => simp [op] at servlets
  | _ => simp [op] at plan

theorem usersPlan_follows (directed : Directed db m.schema) (agrees : Agrees m d)
    {p : Plan UserTable} (plan : usersPlan request m.schema m.users = some p) :
    Executes (fun u => Agrees { m with users := u }) d p (d.verdict request) := by
  have cat := directed.catalog
  have none := directed.noServletIds
  unfold usersPlan at plan
  unfold Directory.verdict
  cases op : request.opType with
  | opCreateUser =>
    simp only [op] at plan ⊢
    exact Option.some.inj plan ▸ createUser_follows request agrees cat none
  | opDropUser =>
    simp only [op] at plan ⊢
    exact Option.some.inj plan ▸ dropUser_follows request agrees
  | opAddPrivilege =>
    simp only [op] at plan ⊢
    exact Option.some.inj plan ▸ changePrivilege_follows request agrees cat none grantedUser
  | opDropPrivilege =>
    simp only [op] at plan ⊢
    exact Option.some.inj plan ▸ changePrivilege_follows request agrees cat none revokedUser
  | _ => simp [op] at plan

variable (serialises) in
theorem onApply_follows {env : Env} (event : CatalogEvent (.apply request env)) {r : Replica}
    (directed : Directed r.db r.memory.schema) (agrees : Agrees r.memory d) :
    (onApply serialises request env r).2 =
        ((d.verdict request).settle serialises env.dbOk d).2 ∧
      Agrees (onApply serialises request env r).1.memory
        ((d.verdict request).settle serialises env.dbOk d).1 := by
  have among := event.2
  have applied := onApply_applied serialises request env r
  generalize onApply serialises request env r = out at applied
  cases applied with
  | schema p plan =>
    exact (schemaPlan_follows event directed agrees plan).run serialises env.dbOk r.db
  | users p plan => exact (usersPlan_follows directed agrees plan).run serialises env.dbOk r.db
  | configs p plan =>
    unfold configsPlan at plan
    cases op : request.opType <;> simp_all
  | instances p plan =>
    unfold instancesPlan at plan
    cases op : request.opType <;> simp_all
  | unknown op => simp [op] at among

end Requests

/-- A replica of a run that holds what the directory says. -/
def Represents (serialises : MetaValue → Bool) (r : Replica) (d : Directory) : Prop :=
  CatalogReachable serialises r ∧ Agrees r.memory d

variable (serialises) in
theorem represents_empty : Represents serialises {} {} := ⟨Reach.From.start, agrees_empty⟩

/-- One event is answered as the directory answers it. -/
theorem answer_follows {d : Directory} (h : Represents serialises r d) {e : DiscoveryEvent}
    (event : CatalogEvent e) :
    (r.answer serialises e).2 = (d.answer serialises e).2 ∧
      Represents serialises (r.answer serialises e).1 (d.answer serialises e).1 := by
  obtain ⟨reach, agrees⟩ := h
  cases e with
  | apply request env =>
    obtain ⟨reply, next⟩ :=
      onApply_follows serialises event (reachable_directed reach) agrees
    refine ⟨congrArg Answer.replied reply, reach.next event rfl, next⟩
  | reload =>
    obtain ⟨m, load, next⟩ := load_agrees reach agrees (Or.inl rfl)
    have step : r.step serialises .reload = some { r with memory := m } := by
      rw [Replica.step, load]
      rfl
    have answered : r.answer serialises .reload = ({ r with memory := m }, .loaded) := by
      simp only [Replica.answer, load]
    rw [answered]
    exact ⟨rfl, reach.next event step, next⟩
  | restart =>
    obtain ⟨m, load, next⟩ := load_agrees (m := {}) reach agrees (Or.inr rfl)
    have step : r.step serialises .restart = some { r with memory := m } := by
      rw [Replica.step, load]
      rfl
    have answered : r.answer serialises .restart = ({ r with memory := m }, .loaded) := by
      simp only [Replica.answer, load]
    rw [answered]
    exact ⟨rfl, reach.next event step, next⟩

theorem run_follows {d : Directory} (h : Represents serialises r d) {events : List DiscoveryEvent}
    (allowed : ∀ e ∈ events, CatalogEvent e) :
    (Run.all (Replica.answer serialises) r events).2 =
        (Run.all (Directory.answer serialises) d events).2 ∧
      Represents serialises (Run.all (Replica.answer serialises) r events).1
        (Run.all (Directory.answer serialises) d events).1 := by
  have same : List.Forall₂ (fun e e' => e = e' ∧ CatalogEvent e) events events :=
    List.forall₂_same.mpr fun e mem => ⟨rfl, allowed e mem⟩
  have always : Run.Throughout (Replica.answer serialises) (fun _ _ => True) r events :=
    fun _ _ _ _ => trivial
  refine Run.lockstep ?_ same h always
  rintro r d e _ represents ⟨rfl, event⟩ _
  exact answer_follows represents event

/-- The answer to a query for one object. -/
def shownAs {α : Type} (errmsg : String) (response : α → DiscoveryQueryResponse) :
    Option α → DiscoveryQueryResponse
  | none => inputParamError (ascii errmsg)
  | some a => response a

/-- What a client that queries the replica sees is the directory. -/
structure Directory.Shown (d : Directory) (trim : Bytes → Bytes) (order : HashOrder) (m : Memory) :
    Prop where
  namespaceNamed : ∀ (q : DiscoveryQueryRequest) (name : Bytes), q.opType = .queryNamespace →
    q.namespaceName = some name → discoveryQuery trim order q m =
      shownAs "namespace not exist" (fun info => { namespaceInfos := [info] }) (d.namespaces name)
  namespaceListed : ∀ q : DiscoveryQueryRequest, q.opType = .queryNamespace →
    q.namespaceName = none → ∃ infos : List NameSpaceInfo, infos.Nodup ∧
      (∀ info, info ∈ infos ↔ ∃ name, d.namespaces name = some info) ∧
      discoveryQuery trim order q m = { namespaceInfos := infos }
  zoneNamed : ∀ (q : DiscoveryQueryRequest) (zone : Bytes), q.opType = .queryZone →
    q.zone = some zone → discoveryQuery trim order q m =
      shownAs "zone not exist" (fun info => { zoneInfos := [info] })
        (d.zones (q.namespaceName.getD []) zone)
  zoneListed : ∀ q : DiscoveryQueryRequest, q.opType = .queryZone → q.zone = none →
    ∃ infos : List ZoneInfo, infos.Nodup ∧
      (∀ info, info ∈ infos ↔ ∃ namespaceName zone, d.zones namespaceName zone = some info) ∧
      discoveryQuery trim order q m = { zoneInfos := infos }
  userNamed : ∀ (q : DiscoveryQueryRequest) (name : Bytes), q.opType = .queryUserPrivilege →
    q.userName = some name → discoveryQuery trim order q m =
      shownAs "username not exist" (fun user => { userPrivilege := [user] }) (d.users name)
  userListed : ∀ q : DiscoveryQueryRequest, q.opType = .queryUserPrivilege → q.userName = none →
    ∃ names : List Bytes, names.Nodup ∧ (∀ name, name ∈ names ↔ (d.users name).isSome) ∧
      discoveryQuery trim order q m = { userPrivilege := names.filterMap d.users }

theorem Represents.shown {d : Directory} (h : Represents serialises r d)
    (trim : Bytes → Bytes) (order : HashOrder) : d.Shown trim order r.memory := by
  obtain ⟨reach, agrees⟩ := h
  have cat := reachable_catalog reach
  constructor
  case namespaceNamed =>
    intro q name op named
    simp only [discoveryQuery, op, getNamespaceInfo, named]
    cases found : d.namespaces name with
    | none =>
      rw [agrees.namespace_none cat found]
      rfl
    | some info =>
      obtain ⟨_, _, hid, here⟩ := agrees.namespace_some cat found
      rw [hid]
      dsimp only
      rw [Table.getD_eq, here]
      rfl
  case namespaceListed =>
    intro q op absent
    refine ⟨order.walk r.memory.schema.namespaces.infoMap.vals, ?_, fun info => ?_, ?_⟩
    · exact (order.walk_perm _).nodup_iff.mpr cat.namespaces.registry.nodup_vals
    · rw [HashOrder.mem_walk, Table.mem_vals]
      constructor
      · rintro ⟨id, here⟩
        have carried := cat.namespaces.registry.carries id info here
        refine ⟨info.namespaceName, ?_⟩
        rw [← agrees.namespaces]
        exact cat.namespaces.registry.look_eq_some.mpr ⟨by rw [carried]; exact here, rfl⟩
      · rintro ⟨name, found⟩
        exact ⟨_, (agrees.namespace_some cat found).2.2.2⟩
    · simp only [discoveryQuery, op, getNamespaceInfo, absent]
  case zoneNamed =>
    intro q zone op named
    simp only [discoveryQuery, op, getZoneInfo, named]
    cases found : d.zones (q.namespaceName.getD []) zone with
    | none =>
      rw [agrees.zone_none cat found]
      rfl
    | some info =>
      obtain ⟨_, _, hid, here⟩ := agrees.zone_some cat found
      rw [hid]
      dsimp only
      rw [Table.getD_eq, here]
      rfl
  case zoneListed =>
    intro q op absent
    refine ⟨order.walk r.memory.schema.zones.infoMap.vals, ?_, fun info => ?_, ?_⟩
    · exact (order.walk_perm _).nodup_iff.mpr cat.zones.registry.nodup_vals
    · rw [HashOrder.mem_walk, Table.mem_vals]
      constructor
      · rintro ⟨id, here⟩
        have carried := cat.zones.registry.carries id info here
        refine ⟨info.namespaceName, info.zone, ?_⟩
        rw [← agrees.zones]
        exact cat.zones.registry.look_eq_some.mpr ⟨by rw [carried]; exact here, rfl⟩
      · rintro ⟨namespaceName, zone, found⟩
        exact ⟨_, (agrees.zone_some cat found).2.2.2⟩
    · simp only [discoveryQuery, op, getZoneInfo, absent]
  case userNamed =>
    intro q name op named
    simp only [discoveryQuery, op, getUserInfo, named, agrees.users]
    cases d.users name with
    | none => rfl
    | some user => rfl
  case userListed =>
    intro q op absent
    obtain ⟨names, nodup, named, listed⟩ :=
      Table.keys_of_perm_vals (order.walk_perm r.memory.users.vals)
    refine ⟨names, nodup, fun name => ?_, ?_⟩
    · rw [named, agrees.users]
    · simp only [discoveryQuery, op, getUserInfo, absent, listed, agrees.users]

/-- Over any run of requests on namespaces, zones and users, whatever the database does
and whenever its records are loaded, replies and query answers are those of a directory
that only knows names. -/
theorem directory_refined {events : List DiscoveryEvent} (allowed : ∀ e ∈ events, CatalogEvent e) :
    (Run.all (Replica.answer serialises) {} events).2 =
        (Run.all (Directory.answer serialises) {} events).2 ∧
      ∀ (trim : Bytes → Bytes) (order : HashOrder),
        (Run.all (Directory.answer serialises) {} events).1.Shown trim order
          (Run.all (Replica.answer serialises) {} events).1.memory := by
  obtain ⟨answers, final⟩ := run_follows (represents_empty serialises) allowed
  exact ⟨answers, final.shown⟩

theorem directory_refined_after_grant :
    (Run.all (Replica.answer fun _ => true) {} (grantEvents ++ [.restart])).2 =
        (Run.all (Directory.answer fun _ => true) {} (grantEvents ++ [.restart])).2 ∧
      ∀ (trim : Bytes → Bytes) (order : HashOrder),
        (Run.all (Directory.answer fun _ => true) {} (grantEvents ++ [.restart])).1.Shown trim order
          (Run.all (Replica.answer fun _ => true) {} (grantEvents ++ [.restart])).1.memory :=
  directory_refined (by decide)

/-- The two hold the same namespaces, zones and users. -/
structure SameCatalogMaps (m m' : Memory) : Prop where
  namespaces : m.schema.namespaces.idMap = m'.schema.namespaces.idMap ∧
    m.schema.namespaces.infoMap = m'.schema.namespaces.infoMap
  zones : m.schema.zones.idMap = m'.schema.zones.idMap ∧
    m.schema.zones.infoMap = m'.schema.zones.infoMap
  users : m.users = m'.users

theorem Represents.same_maps {r' : Replica} {d : Directory} (h : Represents serialises r d)
    (h' : Represents serialises r' d) : SameCatalogMaps r.memory r'.memory where
  namespaces := by
    refine (reachable_catalog h.1).namespaces.registry.eq_of_look
      (reachable_catalog h'.1).namespaces.registry fun info => ?_
    exact (h.2.namespaces _).trans (h'.2.namespaces _).symm
  zones := by
    refine (reachable_catalog h.1).zones.registry.eq_of_look
      (reachable_catalog h'.1).zones.registry fun info => ?_
    exact (h.2.zones _ _).trans (h'.2.zones _ _).symm
  users := by
    apply Std.ExtTreeMap.ext_getElem?
    exact fun name => (h.2.users name).trans (h'.2.users name).symm

/-- The queries about namespaces, zones and users. -/
def QueryOpType.ofCatalog : List QueryOpType :=
  [.queryNamespace, .queryZone, .queryUserPrivilege, .queryPrivilegeFlatten]

/-- Equal maps give equal answers but for the order in which each process lists them. -/
theorem SameCatalogMaps.shuffles {m m' : Memory} (same : SameCatalogMaps m m')
    (trim : Bytes → Bytes) (order order' : HashOrder) {q : DiscoveryQueryRequest}
    (among : q.opType ∈ QueryOpType.ofCatalog) :
    (discoveryQuery trim order q m).Shuffles (discoveryQuery trim order' q m') := by
  have walked := discoveryQuery_shuffles trim order order' q m
  have equal : discoveryQuery trim order' q m = discoveryQuery trim order' q m' := by
    unfold discoveryQuery
    cases op : q.opType with
    | queryNamespace =>
      dsimp only
      rw [getNamespaceInfo, getNamespaceInfo, same.namespaces.1, same.namespaces.2]
    | queryZone =>
      dsimp only
      rw [getZoneInfo, getZoneInfo, same.zones.1, same.zones.2]
    | queryUserPrivilege | queryPrivilegeFlatten =>
      dsimp only
      rw [same.users]
    | _ => simp [op, QueryOpType.ofCatalog] at among
  rwa [equal] at walked

def DiscoveryEvent.isApply : DiscoveryEvent → Bool
  | .apply .. => true
  | .reload => false
  | .restart => false

def Answer.reply : Answer → Option Reply
  | replied reply => some reply
  | loaded => none
  | loadFailed => none

variable (serialises) in
theorem directory_skips_loads (d : Directory) (events : List DiscoveryEvent) :
    (Run.all (Directory.answer serialises) d events).1 =
        (Run.all (Directory.answer serialises) d (events.filter (·.isApply))).1 ∧
      (Run.all (Directory.answer serialises) d events).2.filterMap Answer.reply =
        (Run.all (Directory.answer serialises) d (events.filter (·.isApply))).2.filterMap
          Answer.reply := by
  induction events generalizing d with
  | nil => exact ⟨rfl, rfl⟩
  | cons e events ih =>
    obtain ⟨state, replies⟩ := ih (d.answer serialises e).1
    cases e with
    | apply request env =>
      refine ⟨state, ?_⟩
      have here : (DiscoveryEvent.apply request env).isApply = true := rfl
      rw [List.filter_cons_of_pos here, Run.all_cons, Run.all_cons]
      exact congrArg (_ :: ·) replies
    | reload => exact ⟨state, replies⟩
    | restart => exact ⟨state, replies⟩

/-- Reloads and restarts, wherever they fall in a run, change no reply to a later request,
and of the answer to a query on namespaces, zones, users or flattened rights no more than the
order of its lists. -/
theorem restarts_invisible {events : List DiscoveryEvent} (allowed : ∀ e ∈ events, CatalogEvent e) :
    (Run.all (Replica.answer serialises) {} events).2.filterMap Answer.reply =
        (Run.all (Replica.answer serialises) {} (events.filter (·.isApply))).2.filterMap
          Answer.reply ∧
      ∀ (trim : Bytes → Bytes) (order order' : HashOrder) (q : DiscoveryQueryRequest),
        q.opType ∈ QueryOpType.ofCatalog →
          (discoveryQuery trim order q
            (Run.all (Replica.answer serialises) {} events).1.memory).Shuffles
          (discoveryQuery trim order' q
            (Run.all (Replica.answer serialises) {} (events.filter (·.isApply))).1.memory) := by
  have fewer : ∀ e ∈ events.filter (·.isApply), CatalogEvent e :=
    fun e mem => allowed e (List.mem_filter.mp mem).1
  obtain ⟨answers, final⟩ := run_follows (represents_empty serialises) allowed
  obtain ⟨answers', final'⟩ := run_follows (represents_empty serialises) fewer
  obtain ⟨state, replies⟩ := directory_skips_loads serialises {} events
  rw [state] at final
  have same := final.same_maps final'
  exact ⟨by rw [answers, answers', replies], fun trim order order' q among =>
    same.shuffles trim order order' among⟩

/-- A reload and a restart after every request. -/
def restlessEvents : List DiscoveryEvent := grantEvents.flatMap fun e => [e, .reload, .restart]

theorem restarts_invisible_amid_grants :
    (Run.all (Replica.answer fun _ => true) {} restlessEvents).2.filterMap Answer.reply =
        (Run.all (Replica.answer fun _ => true) {}
          (restlessEvents.filter (·.isApply))).2.filterMap Answer.reply ∧
      ∀ (trim : Bytes → Bytes) (order order' : HashOrder) (q : DiscoveryQueryRequest),
        q.opType ∈ QueryOpType.ofCatalog →
          (discoveryQuery trim order q
            (Run.all (Replica.answer fun _ => true) {} restlessEvents).1.memory).Shuffles
          (discoveryQuery trim order' q (Run.all (Replica.answer fun _ => true) {}
            (restlessEvents.filter (·.isApply))).1.memory) :=
  restarts_invisible (by decide)

end EA
