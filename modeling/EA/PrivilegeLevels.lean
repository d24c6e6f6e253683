import EA.Lib.Keyed
import EA.ServletIndex
import EA.SnapshotRestore

namespace EA

open ByteString

variable {serialises : MetaValue → Bool} {r : Replica}

/-- The zone that an entry of a request names. -/
def zoneNamed (s : Schema) (namespaceName zone : Bytes) : Nat :=
  s.zones.getZoneId (makeZoneKey namespaceName zone)

def servletNamed (s : Schema) (namespaceName zone servletName : Bytes) : Nat :=
  s.servlets.getServletId (makeServletKey (makeZoneKey namespaceName zone) servletName)

def resolvedZone (s : Schema) (namespaceName : Bytes) (p : PrivilegeZone) : PrivilegeZone :=
  { p with zoneId := zoneNamed s namespaceName p.zone }

def resolvedServlet (s : Schema) (namespaceName : Bytes) (p : PrivilegeServlet) :
    PrivilegeServlet :=
  { p with
    zoneId := zoneNamed s namespaceName p.zone
    servletId := servletNamed s namespaceName p.zone p.servletName }

/-- What `check_and_get_for_privilege` accepts, and what it makes of it. -/
structure Resolves (s : Schema) (user checked : UserPrivilege) : Prop where
  owner : s.namespaces.getNamespaceId user.namespaceName ≠ 0
  zones : ∀ p ∈ user.privilegeZone, zoneNamed s user.namespaceName p.zone ≠ 0
  servlets : ∀ p ∈ user.privilegeServlet, zoneNamed s user.namespaceName p.zone ≠ 0 ∧
    servletNamed s user.namespaceName p.zone p.servletName ≠ 0
  result : checked = { user with
    namespaceId := s.namespaces.getNamespaceId user.namespaceName
    privilegeZone := user.privilegeZone.map (resolvedZone s user.namespaceName)
    privilegeServlet := user.privilegeServlet.map (resolvedServlet s user.namespaceName) }

theorem mapM_eq_map {α β : Type} {f : α → Option β} {g : α → β} {P : α → Prop}
    (each : ∀ a b, f a = some b → P a ∧ b = g a) {l : List α} {bs : List β}
    (h : l.mapM f = some bs) : (∀ a ∈ l, P a) ∧ bs = l.map g := by
  induction l generalizing bs with
  | nil =>
    cases Option.some.inj h
    exact ⟨by simp, rfl⟩
  | cons a l ih =>
    rw [List.mapM_cons] at h
    obtain ⟨b, hb, h⟩ := Option.bind_eq_some_iff.mp h
    obtain ⟨rest, hrest, h⟩ := Option.bind_eq_some_iff.mp h
    cases Option.some.inj h
    obtain ⟨here, rfl⟩ := each a b hb
    obtain ⟨later, rfl⟩ := ih hrest
    exact ⟨List.forall_mem_cons.mpr ⟨here, later⟩, rfl⟩

theorem checkPrivilegeZone_some {s : Schema} {name : Bytes} {p q : PrivilegeZone}
    (h : checkPrivilegeZone s name p = some q) :
    zoneNamed s name p.zone ≠ 0 ∧ q = resolvedZone s name p := by
  unfold checkPrivilegeZone at h
  dsimp only at h
  split at h
  next => simp at h
  next known => exact ⟨known, (Option.some.inj h).symm⟩

theorem checkPrivilegeServlet_some {s : Schema} {name : Bytes} {p q : PrivilegeServlet}
    (h : checkPrivilegeServlet s name p = some q) :
    (zoneNamed s name p.zone ≠ 0 ∧ servletNamed s name p.zone p.servletName ≠ 0) ∧
      q = resolvedServlet s name p := by
  unfold checkPrivilegeServlet at h
  dsimp only at h
  split at h
  next => simp at h
  next zone =>
    split at h
    next => simp at h
    next servlet => exact ⟨⟨zone, servlet⟩, (Option.some.inj h).symm⟩

theorem checkAndGetForPrivilege_some {s : Schema} {user checked : UserPrivilege}
    (h : checkAndGetForPrivilege s user = some checked) : Resolves s user checked := by
  unfold checkAndGetForPrivilege at h
  dsimp only at h
  split at h
  next => simp at h
  next owner =>
    obtain ⟨zones, hzones, h⟩ := Option.bind_eq_some_iff.mp h
    obtain ⟨servlets, hservlets, h⟩ := Option.bind_eq_some_iff.mp h
    obtain ⟨zonesKnown, rfl⟩ := mapM_eq_map (fun _ _ => checkPrivilegeZone_some) hzones
    obtain ⟨servletsKnown, rfl⟩ := mapM_eq_map (fun _ _ => checkPrivilegeServlet_some) hservlets
    exact ⟨owner, zonesKnown, servletsKnown, (Option.some.inj h).symm⟩

/-- Where the record comes from that a request writes. -/
inductive RecordFrom (request : DiscoveryManagerRequest) (s : Schema) (users : UserTable) :
    UserPrivilege → Prop
  | created (checked : UserPrivilege) (op : request.opType = .opCreateUser)
      (absent : request.userPrivilege.username ∉ users)
      (ok : checkAndGetForPrivilege s request.userPrivilege = some checked) :
      RecordFrom request s users { checked with version := 1 }
  | granted (checked mem : UserPrivilege) (op : request.opType = .opAddPrivilege)
      (found : users[request.userPrivilege.username]? = some mem)
      (ok : checkAndGetForPrivilege s request.userPrivilege = some checked) :
      RecordFrom request s users (grantedUser checked mem)
  | revoked (checked mem : UserPrivilege) (op : request.opType = .opDropPrivilege)
      (found : users[request.userPrivilege.username]? = some mem)
      (ok : checkAndGetForPrivilege s request.userPrivilege = some checked) :
      RecordFrom request s users (revokedUser checked mem)

/-- The plans on users, each put with the record's origin. -/
inductive RecordStep (request : DiscoveryManagerRequest) (s : Schema) (users : UserTable) :
    Plan UserTable → Prop
  | refused (errmsg : String) : RecordStep request s users (.refuse .inputParamError errmsg users)
  | put (user : UserPrivilege) (origin : RecordFrom request s users user) :
      RecordStep request s users (.write (some (.userPrivilege user))
        [(constructPrivilegeKey request.userPrivilege.username, some (.userPrivilege user))]
        "write db fail" users (users.insert request.userPrivilege.username user))
  | delete :
      RecordStep request s users (.write none
        [(constructPrivilegeKey request.userPrivilege.username, none)]
        "delete from db fail" users (users.erase request.userPrivilege.username))

theorem changePrivilege_record {change : UserPrivilege → UserPrivilege → UserPrivilege}
    {request : DiscoveryManagerRequest} {s : Schema} {users : UserTable}
    (origin : ∀ checked mem, users[request.userPrivilege.username]? = some mem →
      checkAndGetForPrivilege s request.userPrivilege = some checked →
      RecordFrom request s users (change checked mem)) :
    RecordStep request s users (changePrivilege change request s users) := by
  unfold changePrivilege
  dsimp only
  split
  next => exact .refused _
  next mem found =>
    split
    next => exact .refused _
    next checked ok => exact .put (change checked mem) (origin checked mem found ok)

theorem usersPlan_record {request : DiscoveryManagerRequest} {s : Schema} {users : UserTable}
    {p : Plan UserTable} (h : usersPlan request s users = some p) :
    RecordStep request s users p := by
  unfold usersPlan at h
  split at h
  case h_1 op =>
    cases h
    unfold createUser
    dsimp only
    split
    next => exact .refused _
    next absent =>
      split
      next => exact .refused _
      next checked ok => exact .put _ (.created checked op (by simpa using absent) ok)
  case h_2 =>
    cases h
    unfold dropUser
    dsimp only
    split
    next => exact .refused _
    next => exact .delete
  case h_3 op =>
    cases h
    exact changePrivilege_record fun checked mem found ok => .granted checked mem op found ok
  case h_4 op =>
    cases h
    exact changePrivilege_record fun checked mem found ok => .revoked checked mem op found ok
  case h_5 => simp at h

/-- A property of all records is kept by a request that has it of the record it writes. -/
theorem records_keep {P : UserPrivilege → Prop} {request : DiscoveryManagerRequest} {s : Schema}
    {users : UserTable} {p : Plan UserTable} {dbOk : Bool} {db : MetaDb}
    (h : ∀ (name : Bytes) (user : UserPrivilege), users[name]? = some user → P user)
    (plan : usersPlan request s users = some p)
    (new : ∀ user, RecordFrom request s users user → serialises (.userPrivilege user) = true →
      dbOk = true → P user) (name : Bytes) (user : UserPrivilege)
    (found : (p.run serialises dbOk db).1.2[name]? = some user) : P user := by
  have step := usersPlan_record plan
  cases step with
  | refused => exact h name user found
  | put stored origin =>
    refine Plan.run_write_preserves (I := fun _ (users : UserTable) =>
      ∀ (name : Bytes) (user : UserPrivilege), users[name]? = some user → P user) h
      (fun fits works => ?_) name user found
    intro name user found
    rcases Table.lookup_insert_some found with ⟨_, rfl⟩ | ⟨_, old⟩
    · exact new stored origin (by simpa using fits) works
    · exact h name user old
  | delete =>
    refine Plan.run_write_preserves (I := fun _ (users : UserTable) =>
      ∀ (name : Bytes) (user : UserPrivilege), users[name]? = some user → P user) h
      (fun _ _ => ?_) name user found
    exact fun name user here => h name user (Table.lookup_erase_some here).2

/-- What a servlet right is about. -/
def PrivilegeServlet.place (p : PrivilegeServlet) : Nat × Nat := (p.zoneId, p.servletId)

def PrivilegeZone.level (p : PrivilegeZone) : Nat := p.rw.toNat

def PrivilegeServlet.level (p : PrivilegeServlet) : Nat := p.rw.toNat

def raisedZone (privilege mem : PrivilegeZone) : PrivilegeZone :=
  if privilege.force || mem.rw.toNat < privilege.rw.toNat then
    { mem with zoneRw := some privilege.rw }
  else mem

def raisedServlet (privilege mem : PrivilegeServlet) : PrivilegeServlet :=
  if privilege.force || mem.rw.toNat < privilege.rw.toNat then
    { mem with servletRw := some privilege.rw }
  else mem

def loweredZone (privilege copy : PrivilegeZone) : Option PrivilegeZone :=
  if privilege.zoneRw.isSome && privilege.rw.toNat < copy.rw.toNat then some privilege else none

def loweredServlet (privilege copy : PrivilegeServlet) : Option PrivilegeServlet :=
  if privilege.servletRw.isSome && privilege.rw.toNat < copy.rw.toNat then some privilege else none

theorem insertZonePrivilege_eq (p : PrivilegeZone) (mem : List PrivilegeZone) :
    insertZonePrivilege p mem = Keyed.upsert PrivilegeZone.zoneId raisedZone p mem := by
  induction mem with
  | nil => rfl
  | cons m rest ih =>
    unfold insertZonePrivilege Keyed.upsert raisedZone
    rw [ih]
    split
    next => split <;> rfl
    next => rfl

theorem insertServletPrivilege_eq (p : PrivilegeServlet) (mem : List PrivilegeServlet) :
    insertServletPrivilege p mem = Keyed.upsert PrivilegeServlet.place raisedServlet p mem := by
  induction mem with
  | nil => rfl
  | cons m rest ih =>
    have keyed : m.place = p.place ↔ m.zoneId = p.zoneId ∧ m.servletId = p.servletId :=
      Prod.mk_inj
    unfold insertServletPrivilege Keyed.upsert raisedServlet
    rw [ih]
    simp only [keyed]
    split
    next => split <;> rfl
    next => rfl

theorem insertIp_eq (ip : Bytes) (ips : List Bytes) :
    insertIp ip ips = Keyed.upsert id (fun _ old => old) ip ips := by
  induction ips with
  | nil => rfl
  | cons first rest ih =>
    by_cases here : first = ip
    · simp [insertIp, Keyed.upsert, here]
    · have other : ¬ ip = first := fun eq => here eq.symm
      unfold insertIp at ih
      simp only [insertIp, Keyed.upsert, id_eq, if_neg here, ← ih, List.mem_cons, other, false_or]
      split <;> rfl

theorem deleteZonePrivilege_eq (p : PrivilegeZone) (mem : List PrivilegeZone) :
    deleteZonePrivilege p mem = Keyed.amend PrivilegeZone.zoneId loweredZone p mem := rfl

theorem deleteServletPrivilege_eq (p : PrivilegeServlet) (mem : List PrivilegeServlet) :
    deleteServletPrivilege p mem = Keyed.amend PrivilegeServlet.place loweredServlet p mem := by
  unfold deleteServletPrivilege Keyed.amend
  congr 1
  funext copy
  have keyed : copy.place = p.place ↔ p.zoneId = copy.zoneId ∧ p.servletId = copy.servletId := by
    refine Prod.mk_inj.trans (and_congr ?_ ?_)
    · exact eq_comm
    · exact eq_comm
  simp only [keyed]
  rfl

theorem raisedZone_zoneId (p m : PrivilegeZone) : (raisedZone p m).zoneId = m.zoneId := by
  unfold raisedZone
  split <;> rfl

theorem raisedServlet_place (p m : PrivilegeServlet) : (raisedServlet p m).place = m.place := by
  unfold raisedServlet
  split <;> rfl

theorem loweredZone_zoneId (p m q : PrivilegeZone) (same : m.zoneId = p.zoneId)
    (h : loweredZone p m = some q) : q.zoneId = m.zoneId := by
  unfold loweredZone at h
  split at h
  next => rw [same, Option.some.inj h]
  next => simp at h

theorem loweredServlet_place (p m q : PrivilegeServlet) (same : m.place = p.place)
    (h : loweredServlet p m = some q) : q.place = m.place := by
  unfold loweredServlet at h
  split at h
  next => rw [same, Option.some.inj h]
  next => simp at h

theorem raisedZone_level {p : PrivilegeZone} (plain : p.force = false) (m : PrivilegeZone) :
    (raisedZone p m).level = max m.level p.level := by
  unfold raisedZone PrivilegeZone.level
  by_cases lower : m.rw.toNat < p.rw.toNat
  · have raised : (({ m with zoneRw := some p.rw } : PrivilegeZone)).rw = p.rw := rfl
    rw [plain, if_pos (by simpa using lower), raised]
    omega
  · rw [plain, if_neg (by simpa using lower)]
    omega

theorem raisedServlet_level {p : PrivilegeServlet} (plain : p.force = false)
    (m : PrivilegeServlet) : (raisedServlet p m).level = max m.level p.level := by
  unfold raisedServlet PrivilegeServlet.level
  by_cases lower : m.rw.toNat < p.rw.toNat
  · have raised : (({ m with servletRw := some p.rw } : PrivilegeServlet)).rw = p.rw := rfl
    rw [plain, if_pos (by simpa using lower), raised]
    omega
  · rw [plain, if_neg (by simpa using lower)]
    omega

theorem loweredZone_level (p m q : PrivilegeZone) (h : loweredZone p m = some q) :
    q.level < m.level := by
  unfold loweredZone at h
  split at h
  next lower =>
    cases Option.some.inj h
    simp only [Bool.and_eq_true, decide_eq_true_eq] at lower
    exact lower.2
  next => simp at h

theorem loweredServlet_level (p m q : PrivilegeServlet) (h : loweredServlet p m = some q) :
    q.level < m.level := by
  unfold loweredServlet at h
  split at h
  next lower =>
    cases Option.some.inj h
    simp only [Bool.and_eq_true, decide_eq_true_eq] at lower
    exact lower.2
  next => simp at h

/-- The lists of a granted record as a whole. -/
theorem grantedUser_lists (request mem : UserPrivilege) :
    (grantedUser request mem).privilegeZone =
        Keyed.upsertAll PrivilegeZone.zoneId raisedZone request.privilegeZone mem.privilegeZone ∧
      (grantedUser request mem).privilegeServlet =
        Keyed.upsertAll PrivilegeServlet.place raisedServlet request.privilegeServlet
          mem.privilegeServlet ∧
      (grantedUser request mem).ip = Keyed.upsertAll id (fun _ old => old) request.ip mem.ip := by
  refine ⟨?_, ?_, ?_⟩
  · simp only [grantedUser, insertZonePrivilege_eq, Keyed.upsertAll]
  · simp only [grantedUser, insertServletPrivilege_eq, Keyed.upsertAll]
  · simp only [grantedUser, insertIp_eq, Keyed.upsertAll]

theorem foldl_deleteIp (request ips : List Bytes) :
    request.foldl (fun m p => deleteIp p m) ips = ips.filter fun ip => ip ∉ request := by
  induction request generalizing ips with
  | nil => simp
  | cons first rest ih =>
    rw [List.foldl_cons, ih, deleteIp, List.filter_filter]
    congr 1
    funext ip
    by_cases here : ip = first <;> simp [here]

theorem revokedUser_lists (request mem : UserPrivilege) :
    (revokedUser request mem).privilegeZone =
        Keyed.amendAll PrivilegeZone.zoneId loweredZone request.privilegeZone mem.privilegeZone ∧
      (revokedUser request mem).privilegeServlet =
        Keyed.amendAll PrivilegeServlet.place loweredServlet request.privilegeServlet
          mem.privilegeServlet ∧
      (revokedUser request mem).ip = mem.ip.filter fun ip => ip ∉ request.ip := by
  refine ⟨?_, ?_, ?_⟩
  · simp only [revokedUser, deleteZonePrivilege_eq, Keyed.amendAll]
  · simp only [revokedUser, deleteServletPrivilege_eq, Keyed.amendAll]
  · exact foldl_deleteIp request.ip mem.ip

/-- One entry for each object and for each address. -/
structure UserPrivilege.Unique (user : UserPrivilege) : Prop where
  zones : (user.privilegeZone.map PrivilegeZone.zoneId).Nodup
  servlets : (user.privilegeServlet.map PrivilegeServlet.place).Nodup
  ips : user.ip.Nodup

/-- The names of a request point to different objects. -/
def NamesOnce (s : Schema) (user : UserPrivilege) : Prop :=
  (user.privilegeZone.map fun p => zoneNamed s user.namespaceName p.zone).Nodup ∧
    (user.privilegeServlet.map fun p => (zoneNamed s user.namespaceName p.zone,
      servletNamed s user.namespaceName p.zone p.servletName)).Nodup ∧
    user.ip.Nodup

/-- The record that `create_user` stores is the request's, repetitions included. -/
theorem created_unique_iff {s : Schema} {user checked : UserPrivilege}
    (h : Resolves s user checked) :
    ({ checked with version := 1 } : UserPrivilege).Unique ↔ NamesOnce s user := by
  have zones : checked.privilegeZone.map PrivilegeZone.zoneId =
      user.privilegeZone.map fun p => zoneNamed s user.namespaceName p.zone := by
    rw [h.result, List.map_map]
    rfl
  have servlets : checked.privilegeServlet.map PrivilegeServlet.place =
      user.privilegeServlet.map fun p => (zoneNamed s user.namespaceName p.zone,
        servletNamed s user.namespaceName p.zone p.servletName) := by
    rw [h.result, List.map_map]
    rfl
  have ips : checked.ip = user.ip := by rw [h.result]
  constructor
  · intro unique
    have first := unique.zones
    have second := unique.servlets
    have third := unique.ips
    rw [zones] at first
    rw [servlets] at second
    rw [ips] at third
    exact ⟨first, second, third⟩
  · intro ⟨first, second, third⟩
    rw [← zones] at first
    rw [← servlets] at second
    rw [← ips] at third
    exact ⟨first, second, third⟩

theorem granted_unique {mem : UserPrivilege} (request : UserPrivilege) (h : mem.Unique) :
    (grantedUser request mem).Unique := by
  obtain ⟨zones, servlets, ips⟩ := grantedUser_lists request mem
  have kept : ((Keyed.upsertAll id (fun _ old => old) request.ip mem.ip).map id).Nodup :=
    Keyed.nodup_upsertAll (fun _ _ => rfl) _ (by simpa using h.ips)
  constructor
  case zones =>
    rw [zones]
    exact Keyed.nodup_upsertAll raisedZone_zoneId _ h.zones
  case servlets =>
    rw [servlets]
    exact Keyed.nodup_upsertAll raisedServlet_place _ h.servlets
  case ips =>
    rw [ips]
    simpa using kept

theorem revoked_unique {mem : UserPrivilege} (request : UserPrivilege) (h : mem.Unique) :
    (revokedUser request mem).Unique := by
  obtain ⟨zones, servlets, ips⟩ := revokedUser_lists request mem
  constructor
  case zones =>
    rw [zones]
    exact Keyed.nodup_amendAll loweredZone_zoneId _ h.zones
  case servlets =>
    rw [servlets]
    exact Keyed.nodup_amendAll loweredServlet_place _ h.servlets
  case ips =>
    rw [ips]
    exact h.ips.filter _

def UsersUnique (users : UserTable) : Prop :=
  ∀ (name : Bytes) (user : UserPrivilege), users[name]? = some user → user.Unique

/-- A user that is created, and whose record is written, names nothing twice. -/
def CreatesUnique (serialises : MetaValue → Bool) (r : Replica) : DiscoveryEvent → Prop
  | .apply request env =>
    request.opType = .opCreateUser → request.userPrivilege.username ∉ r.memory.users →
      env.dbOk = true →
      (∀ checked ∈ checkAndGetForPrivilege r.memory.schema request.userPrivilege,
        serialises (.userPrivilege { checked with version := 1 }) = true →
          NamesOnce r.memory.schema request.userPrivilege)
  | .reload => True
  | .restart => True

theorem usersUnique_step {request : DiscoveryManagerRequest} {env : Env} {r : Replica}
    {p : Plan UserTable} (safe : CreatesUnique serialises r (.apply request env))
    (h : UsersUnique r.memory.users)
    (plan : usersPlan request r.memory.schema r.memory.users = some p) :
    UsersUnique (p.run serialises env.dbOk r.db).1.2 := by
  refine records_keep h plan ?_
  intro user origin fits works
  cases origin with
  | created checked op absent ok =>
    have once := safe op absent works checked ok fits
    exact (created_unique_iff (checkAndGetForPrivilege_some ok)).mpr once
  | granted checked mem _ found => exact granted_unique checked (h _ mem found)
  | revoked checked mem _ found => exact revoked_unique checked (h _ mem found)

/-- Additions and removals keep one entry for each object, whatever they repeat; so
every record has that as long as no user is created with a repeated one. -/
theorem entries_unique {r : Replica} (h : Reachable serialises (CreatesUnique serialises) r)
    (name : Bytes) (user : UserPrivilege) (found : r.memory.users[name]? = some user) :
    user.Unique := by
  have both : UsersMirrored r.db r.memory.users ∧ UsersUnique r.memory.users := by
    refine users_invariant (I := fun db users => UsersMirrored db users ∧ UsersUnique users)
      ⟨Mirror.empty, fun name user none => by simp at none⟩ ?_ ?_ ?_ h
    · exact fun same inv => ⟨UsersMirrored.frame same inv.1, inv.2⟩
    · intro r request env p inv safe plan
      exact ⟨Plan.run_preserves (usersMirrored_step inv.1 (usersPlan_step plan)),
        usersUnique_step safe inv.2 plan⟩
    · intro db users users' inv load
      rw [loadUsers_eq inv.1] at load
      rwa [← Option.some.inj load]
  exact both.2 name user found

def userEvent (opType : OpType) (user : UserPrivilege) : DiscoveryEvent :=
  .apply { opType := opType, userPrivilege := user } ⟨0, true⟩

/-- A zone right for each of the named zones of one namespace. -/
def zoneRights (rights : List (String × RW)) : UserPrivilege :=
  { username := ascii "ann", namespaceName := ascii "shop",
    privilegeZone := rights.map fun e => { zone := ascii e.1, zoneRw := some e.2 } }

def rightsEvents : List DiscoveryEvent :=
  [namespaceEvent "shop", zoneEvent .opCreateZone "shop" "east",
    zoneEvent .opCreateZone "shop" "west", userEvent .opCreateUser (zoneRights [("east", .read)]),
    userEvent .opAddPrivilege (zoneRights [("west", .read), ("east", .write), ("west", .write)])]

theorem entries_unique_after_additions : ∃ (r : Replica) (user : UserPrivilege),
    r.memory.users[ascii "ann"]? = some user ∧
      user.privilegeZone.map PrivilegeZone.zoneId = [1, 2] ∧ user.Unique := by
  have run : (rightsEvents.foldlM (Replica.step fun _ => true) {}).bind (fun r =>
      (r.memory.users[ascii "ann"]?).map fun user =>
        user.privilegeZone.map PrivilegeZone.zoneId) = some [1, 2] := by decide
  obtain ⟨r, hr, run⟩ := Option.bind_eq_some_iff.mp run
  obtain ⟨user, found, zones⟩ := Option.map_eq_some_iff.mp run
  have allowed : ∀ r, ∀ e ∈ rightsEvents, CreatesUnique (fun _ => true) r e := by
    intro r
    simp only [rightsEvents, List.forall_mem_cons]
    refine ⟨fun op => ?_, fun op => ?_, fun op => ?_, fun _ _ _ _ _ _ => ?_, fun op => ?_, by simp⟩
    case refine_4 => exact ⟨List.nodup_singleton _, List.nodup_nil, List.nodup_nil⟩
    all_goals cases op
  exact ⟨r, user, found, zones, entries_unique (Reach.From.of_foldlM allowed hr) _ user found⟩

/-- A user is created with two rights on one zone, and the record keeps both. -/
theorem created_with_repetition :
    ¬ ∀ r, Reachable (fun _ => true) (fun _ _ => True) r →
      ∀ (name : Bytes) (user : UserPrivilege), r.memory.users[name]? = some user →
        user.Unique := by
  intro unique
  have run : ([namespaceEvent "shop", zoneEvent .opCreateZone "shop" "east",
      userEvent .opCreateUser (zoneRights [("east", .read), ("east", .write)])].foldlM
        (Replica.step fun _ => true) {}).bind (fun r =>
      (r.memory.users[ascii "ann"]?).map fun user =>
        user.privilegeZone.map PrivilegeZone.zoneId) = some [1, 1] := by decide
  obtain ⟨r, hr, run⟩ := Option.bind_eq_some_iff.mp run
  obtain ⟨user, found, zones⟩ := Option.map_eq_some_iff.mp run
  have reached : Reachable (fun _ => true) (fun _ _ => True) r :=
    Reach.From.of_foldlM (fun _ _ _ => trivial) hr
  have once := (unique r reached _ user found).zones
  rw [zones] at once
  exact absurd once (by decide)

theorem mem_foldl_insertIp (request ips : List Bytes) (ip : Bytes) :
    ip ∈ request.foldl (fun m p => insertIp p m) ips ↔ ip ∈ ips ∨ ip ∈ request := by
  induction request generalizing ips with
  | nil => simp
  | cons first rest ih =>
    have one : ip ∈ insertIp first ips ↔ ip ∈ ips ∨ ip = first := by
      unfold insertIp
      split
      next known =>
        refine ⟨Or.inl, fun h => h.elim id fun eq => ?_⟩
        rwa [eq]
      next => simp
    rw [List.foldl_cons, ih, one, List.mem_cons, or_assoc]

/-- A record after `add_privilege`: levels are raised, nothing is lost. -/
structure PrivilegeAdded (request mem user : UserPrivilege) : Prop where
  zones : Keyed.Raised PrivilegeZone.zoneId PrivilegeZone.level
    request.privilegeZone mem.privilegeZone user.privilegeZone
  servlets : Keyed.Raised PrivilegeServlet.place PrivilegeServlet.level
    request.privilegeServlet mem.privilegeServlet user.privilegeServlet
  ips : ∀ ip, ip ∈ user.ip ↔ ip ∈ mem.ip ∨ ip ∈ request.ip
  version : user.version = mem.version + 1

/-- A record after `drop_privilege`: what is named is lowered or gone, nothing is new. -/
structure PrivilegeDropped (request mem user : UserPrivilege) : Prop where
  zones : Keyed.Lowered PrivilegeZone.zoneId PrivilegeZone.level
    request.privilegeZone mem.privilegeZone user.privilegeZone
  servlets : Keyed.Lowered PrivilegeServlet.place PrivilegeServlet.level
    request.privilegeServlet mem.privilegeServlet user.privilegeServlet
  ips : user.ip = mem.ip.filter fun ip => ip ∉ request.ip
  version : user.version = mem.version + 1

theorem granted_added {request mem : UserPrivilege}
    (zones : (mem.privilegeZone.map PrivilegeZone.zoneId).Nodup)
    (servlets : (mem.privilegeServlet.map PrivilegeServlet.place).Nodup)
    (zonesPlain : ∀ p ∈ request.privilegeZone, p.force = false)
    (servletsPlain : ∀ p ∈ request.privilegeServlet, p.force = false) :
    PrivilegeAdded request mem (grantedUser request mem) := by
  obtain ⟨zoneList, servletList, _⟩ := grantedUser_lists request mem
  constructor
  case zones =>
    rw [zoneList]
    exact Keyed.raised_upsertAll raisedZone_zoneId
      (fun p hp => raisedZone_level (zonesPlain p hp)) zones
  case servlets =>
    rw [servletList]
    exact Keyed.raised_upsertAll raisedServlet_place
      (fun p hp => raisedServlet_level (servletsPlain p hp)) servlets
  case ips => exact mem_foldl_insertIp request.ip mem.ip
  case version => rfl

theorem revoked_dropped {request mem : UserPrivilege}
    (zones : (mem.privilegeZone.map PrivilegeZone.zoneId).Nodup)
    (servlets : (mem.privilegeServlet.map PrivilegeServlet.place).Nodup) :
    PrivilegeDropped request mem (revokedUser request mem) := by
  obtain ⟨zoneList, servletList, ipList⟩ := revokedUser_lists request mem
  constructor
  case zones =>
    rw [zoneList]
    exact Keyed.lowered_amendAll loweredZone_zoneId loweredZone_level zones
  case servlets =>
    rw [servletList]
    exact Keyed.lowered_amendAll loweredServlet_place loweredServlet_level servlets
  case ips => exact ipList
  case version => rfl

/-- The request succeeds, and the user's record in memory and database becomes one
with `P`; no other record changes. -/
def StoresUser (serialises : MetaValue → Bool) (request : DiscoveryManagerRequest) (env : Env)
    (r : Replica) (P : UserPrivilege → Prop) : Prop :=
  ∃ user : UserPrivilege, P user ∧
    (onApply serialises request env r).2.errcode = .success ∧
    (onApply serialises request env r).1.memory.users =
      r.memory.users.insert request.userPrivilege.username user ∧
    (onApply serialises request env r).1.db =
      r.db.insert (constructPrivilegeKey request.userPrivilege.username) (.userPrivilege user)

theorem changePrivilege_stores {change : UserPrivilege → UserPrivilege → UserPrivilege}
    {request : DiscoveryManagerRequest} {env : Env} {mem checked : UserPrivilege}
    (found : r.memory.users[request.userPrivilege.username]? = some mem)
    (ok : checkAndGetForPrivilege r.memory.schema request.userPrivilege = some checked)
    (works : env.dbOk = true) (fits : serialises (.userPrivilege (change checked mem)) = true)
    (plan : usersPlan request r.memory.schema r.memory.users =
      some (changePrivilege change request r.memory.schema r.memory.users))
    {P : UserPrivilege → Prop} (holds : P (change checked mem)) :
    StoresUser serialises request env r P := by
  have written : changePrivilege change request r.memory.schema r.memory.users =
      .write (some (.userPrivilege (change checked mem)))
        [(constructPrivilegeKey request.userPrivilege.username,
          some (.userPrivilege (change checked mem)))] "write db fail" r.memory.users
        (r.memory.users.insert request.userPrivilege.username (change checked mem)) := by
    simp only [changePrivilege, found, ok]
  have handled := handle_of_usersPlan plan env.now
  rw [written] at handled
  have out : onApply serialises request env r = _ := onApply_of_handle handled
  simp only [Plan.run, Option.any_some, fits, works, Bool.not_true, if_false,
    Bool.false_eq_true] at out
  refine ⟨change checked mem, holds, ?_, ?_, ?_⟩
  · rw [out]
  · rw [out]
  · rw [out]
    rfl

/-- Additions raise levels to the maximum asked for and removals lower them strictly, for
lists with any repetitions; what a request does not name stays. -/
theorem privilege_levels_move {request : DiscoveryManagerRequest} {env : Env}
    {mem checked : UserPrivilege}
    (found : r.memory.users[request.userPrivilege.username]? = some mem)
    (zones : (mem.privilegeZone.map PrivilegeZone.zoneId).Nodup)
    (servlets : (mem.privilegeServlet.map PrivilegeServlet.place).Nodup)
    (ok : checkAndGetForPrivilege r.memory.schema request.userPrivilege = some checked)
    (works : env.dbOk = true) :
    (request.opType = .opAddPrivilege →
      (∀ p ∈ request.userPrivilege.privilegeZone, p.force = false) →
      (∀ p ∈ request.userPrivilege.privilegeServlet, p.force = false) →
      serialises (.userPrivilege (grantedUser checked mem)) = true →
      StoresUser serialises request env r (PrivilegeAdded checked mem)) ∧
    (request.opType = .opDropPrivilege →
      serialises (.userPrivilege (revokedUser checked mem)) = true →
      StoresUser serialises request env r (PrivilegeDropped checked mem)) := by
  have resolved := checkAndGetForPrivilege_some ok
  refine ⟨fun op zonesPlain servletsPlain fits => ?_, fun op fits => ?_⟩
  · have plan : usersPlan request r.memory.schema r.memory.users =
        some (changePrivilege grantedUser request r.memory.schema r.memory.users) := by
      simp only [usersPlan, op, addPrivilege]
    refine changePrivilege_stores found ok works fits plan ?_
    apply granted_added zones servlets
    · rw [resolved.result]
      exact List.forall_mem_map.mpr zonesPlain
    · rw [resolved.result]
      exact List.forall_mem_map.mpr servletsPlain
  · have plan : usersPlan request r.memory.schema r.memory.users =
        some (changePrivilege revokedUser request r.memory.schema r.memory.users) := by
      simp only [usersPlan, op, dropPrivilege]
    refine changePrivilege_stores found ok works fits plan ?_
    exact revoked_dropped zones servlets

/-- A user with a right on one of the two zones of a namespace. -/
def keeper (right : RW) : UserPrivilege :=
  { zoneRights [("east", right)] with
    namespaceId := 1, version := 1
    privilegeZone := [{ zone := ascii "east", zoneId := 1, zoneRw := some right }] }

def keeperReplica (right : RW) : Replica where
  memory := {
    schema := {
      namespaces := { idMap := (∅ : Table Bytes Nat).insert (ascii "shop") 1 }
      zones := {
        idMap := ((∅ : Table Bytes Nat).insert (makeZoneKey (ascii "shop") (ascii "east")) 1).insert
          (makeZoneKey (ascii "shop") (ascii "west")) 2 } }
    users := (∅ : UserTable).insert (ascii "ann") (keeper right) }

def rightsRequest (opType : OpType) (rights : List (String × RW)) : DiscoveryManagerRequest :=
  { opType := opType, userPrivilege := zoneRights rights }

/-- The rights of a request with the numbers of their zones. -/
def numberedRights (rights : List (String × Nat × RW)) : UserPrivilege :=
  { zoneRights [] with
    namespaceId := 1
    privilegeZone := rights.map fun e =>
      { zone := ascii e.1, zoneId := e.2.1, zoneRw := some e.2.2 } }

theorem privilege_levels_move_for_keeper :
    StoresUser (fun _ => true)
        (rightsRequest .opAddPrivilege [("west", .read), ("east", .write), ("west", .write)])
        ⟨0, true⟩ (keeperReplica .read)
        (PrivilegeAdded
          (numberedRights [("west", 2, .read), ("east", 1, .write), ("west", 2, .write)])
          (keeper .read)) ∧
      StoresUser (fun _ => true) (rightsRequest .opDropPrivilege [("east", .read), ("west", .read)])
        ⟨0, true⟩ (keeperReplica .write)
        (PrivilegeDropped (numberedRights [("east", 1, .read), ("west", 2, .read)])
          (keeper .write)) := by
  have found : ∀ opType rights right,
      (keeperReplica right).memory.users[(rightsRequest opType rights).userPrivilege.username]? =
        some (keeper right) := fun _ _ _ => Table.lookup_insert_self ..
  have zones : ∀ right, ((keeper right).privilegeZone.map PrivilegeZone.zoneId).Nodup :=
    fun _ => List.nodup_singleton _
  have servlets : ∀ right, ((keeper right).privilegeServlet.map PrivilegeServlet.place).Nodup :=
    fun _ => List.nodup_nil
  constructor
  · have ok : checkAndGetForPrivilege (keeperReplica .read).memory.schema
        (rightsRequest .opAddPrivilege
          [("west", .read), ("east", .write), ("west", .write)]).userPrivilege =
        some (numberedRights [("west", 2, .read), ("east", 1, .write), ("west", 2, .write)]) := by
      decide
    exact (privilege_levels_move (found _ _ _) (zones _) (servlets _) ok rfl).1 rfl (by decide)
      (by decide) rfl
  · have ok : checkAndGetForPrivilege (keeperReplica .write).memory.schema
        (rightsRequest .opDropPrivilege [("east", .read), ("west", .read)]).userPrivilege =
        some (numberedRights [("east", 1, .read), ("west", 2, .read)]) := by decide
    exact (privilege_levels_move (found _ _ _) (zones _) (servlets _) ok rfl).2 rfl rfl

end EA
