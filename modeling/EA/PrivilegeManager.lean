import EA.SchemaManagers

namespace EA

abbrev UserTable := Table Bytes UserPrivilege

def checkPrivilegeZone (s : Schema) (namespaceName : Bytes) (privilege : PrivilegeZone) :
    Option PrivilegeZone :=
  let zoneId := s.zones.getZoneId (makeZoneKey namespaceName privilege.zone)
  if zoneId = 0 then none else some { privilege with zoneId := zoneId }

def checkPrivilegeServlet (s : Schema) (namespaceName : Bytes) (privilege : PrivilegeServlet) :
    Option PrivilegeServlet :=
  let baseName := makeZoneKey namespaceName privilege.zone
  let zoneId := s.zones.getZoneId baseName
  if zoneId = 0 then none
  else
    let servletId := s.servlets.getServletId (makeServletKey baseName privilege.servletName)
    if servletId = 0 then none
    else some { privilege with zoneId := zoneId, servletId := servletId }

/-- `SchemaManager::check_and_get_for_privilege`: the request with its names resolved. -/
def checkAndGetForPrivilege (s : Schema) (user : UserPrivilege) : Option UserPrivilege := do
  let namespaceId := s.namespaces.getNamespaceId user.namespaceName
  if namespaceId = 0 then none
  else
    let zones ← user.privilegeZone.mapM (checkPrivilegeZone s user.namespaceName)
    let servlets ← user.privilegeServlet.mapM (checkPrivilegeServlet s user.namespaceName)
    some { user with
      namespaceId := namespaceId, privilegeZone := zones, privilegeServlet := servlets }

def PrivilegeZone.rw (p : PrivilegeZone) : RW := p.zoneRw.getD default

def PrivilegeServlet.rw (p : PrivilegeServlet) : RW := p.servletRw.getD default

/-- The first entry of the zone is raised, or set if the request forces it. -/
def insertZonePrivilege (privilege : PrivilegeZone) : List PrivilegeZone → List PrivilegeZone
  | [] => [privilege]
  | mem :: rest =>
    if mem.zoneId = privilege.zoneId then
      if privilege.force || mem.rw.toNat < privilege.rw.toNat then
        { mem with zoneRw := some privilege.rw } :: rest
      else mem :: rest
    else mem :: insertZonePrivilege privilege rest

def insertServletPrivilege (privilege : PrivilegeServlet) :
    List PrivilegeServlet → List PrivilegeServlet
  | [] => [privilege]
  | mem :: rest =>
    if mem.zoneId = privilege.zoneId ∧ mem.servletId = privilege.servletId then
      if privilege.force || mem.rw.toNat < privilege.rw.toNat then
        { mem with servletRw := some privilege.rw } :: rest
      else mem :: rest
    else mem :: insertServletPrivilege privilege rest

def insertIp (ip : Bytes) (ips : List Bytes) : List Bytes :=
  if ip ∈ ips then ips else ips ++ [ip]

/-- An entry of the zone is dropped, or replaced by the request where that asks
for a lower right only. -/
def deleteZonePrivilege (privilege : PrivilegeZone) (mem : List PrivilegeZone) :
    List PrivilegeZone :=
  mem.filterMap fun copy =>
    if copy.zoneId = privilege.zoneId then
      if privilege.zoneRw.isSome && privilege.rw.toNat < copy.rw.toNat then some privilege
      else none
    else some copy

def deleteServletPrivilege (privilege : PrivilegeServlet) (mem : List PrivilegeServlet) :
    List PrivilegeServlet :=
  mem.filterMap fun copy =>
    if privilege.zoneId = copy.zoneId ∧ privilege.servletId = copy.servletId then
      if privilege.servletRw.isSome && privilege.rw.toNat < copy.rw.toNat then some privilege
      else none
    else some copy

def deleteIp (ip : Bytes) (ips : List Bytes) : List Bytes := ips.filter (· ≠ ip)

def createUser (request : DiscoveryManagerRequest) (s : Schema) (users : UserTable) :
    Plan UserTable :=
  let username := request.userPrivilege.username
  match users[username]? with
  | some _ => .refuse .inputParamError "username has been repeated" users
  | none =>
    match checkAndGetForPrivilege s request.userPrivilege with
    | none => .refuse .inputParamError "request invalid" users
    | some checked =>
      let userPrivilege := { checked with version := 1 }
      .write (some (.userPrivilege userPrivilege))
        [(constructPrivilegeKey username, some (.userPrivilege userPrivilege))] "write db fail"
        users (users.insert username userPrivilege)

def dropUser (request : DiscoveryManagerRequest) (users : UserTable) : Plan UserTable :=
  let username := request.userPrivilege.username
  match users[username]? with
  | none => .refuse .inputParamError "username not exist" users
  | some _ =>
    .write none [(constructPrivilegeKey username, none)] "delete from db fail" users
      (users.erase username)

def grantedUser (request mem : UserPrivilege) : UserPrivilege :=
  { mem with
    privilegeZone := request.privilegeZone.foldl (fun m p => insertZonePrivilege p m)
      mem.privilegeZone
    privilegeServlet := request.privilegeServlet.foldl (fun m p => insertServletPrivilege p m)
      mem.privilegeServlet
    ip := request.ip.foldl (fun m p => insertIp p m) mem.ip
    needAuthAddr := request.needAuthAddr <|> mem.needAuthAddr
    resourceTag := request.resourceTag <|> mem.resourceTag
    version := mem.version + 1 }

def revokedUser (request mem : UserPrivilege) : UserPrivilege :=
  { mem with
    privilegeZone := request.privilegeZone.foldl (fun m p => deleteZonePrivilege p m)
      mem.privilegeZone
    privilegeServlet := request.privilegeServlet.foldl (fun m p => deleteServletPrivilege p m)
      mem.privilegeServlet
    ip := request.ip.foldl (fun m p => deleteIp p m) mem.ip
    needAuthAddr := request.needAuthAddr <|> mem.needAuthAddr
    resourceTag := if request.resourceTag.isSome && request.resourceTag = mem.resourceTag
      then none else mem.resourceTag
    version := mem.version + 1 }

/-- `add_privilege` and `drop_privilege` differ in what they make of the record. -/
def changePrivilege (change : UserPrivilege → UserPrivilege → UserPrivilege)
    (request : DiscoveryManagerRequest) (s : Schema) (users : UserTable) : Plan UserTable :=
  let username := request.userPrivilege.username
  match users[username]? with
  | none => .refuse .inputParamError "username not exist" users
  | some mem =>
    match checkAndGetForPrivilege s request.userPrivilege with
    | none => .refuse .inputParamError "request invalid" users
    | some checked =>
      let tmpMemPrivilege := change checked mem
      .write (some (.userPrivilege tmpMemPrivilege))
        [(constructPrivilegeKey username, some (.userPrivilege tmpMemPrivilege))] "write db fail"
        users (users.insert username tmpMemPrivilege)

def addPrivilege : DiscoveryManagerRequest → Schema → UserTable → Plan UserTable :=
  changePrivilege grantedUser

def dropPrivilege : DiscoveryManagerRequest → Schema → UserTable → Plan UserTable :=
  changePrivilege revokedUser

def usersPlan (request : DiscoveryManagerRequest) (s : Schema) (users : UserTable) :
    Option (Plan UserTable) :=
  match request.opType with
  | .opCreateUser => some (createUser request s users)
  | .opDropUser => some (dropUser request users)
  | .opAddPrivilege => some (addPrivilege request s users)
  | .opDropPrivilege => some (dropPrivilege request s users)
  | _ => none

/-- Everything that a request can make of the users. -/
inductive UserStep (request : DiscoveryManagerRequest) (users : UserTable) :
    Plan UserTable → Prop
  | refused (errmsg : String) : UserStep request users (.refuse .inputParamError errmsg users)
  | put (user : UserPrivilege) :
      UserStep request users (.write (some (.userPrivilege user))
        [(constructPrivilegeKey request.userPrivilege.username, some (.userPrivilege user))]
        "write db fail" users (users.insert request.userPrivilege.username user))
  | delete :
      UserStep request users (.write none
        [(constructPrivilegeKey request.userPrivilege.username, none)]
        "delete from db fail" users (users.erase request.userPrivilege.username))

theorem createUser_step (request : DiscoveryManagerRequest) (s : Schema) (users : UserTable) :
    UserStep request users (createUser request s users) := by
  unfold createUser
  dsimp only
  split
  next => exact .refused _
  next =>
    split
    next => exact .refused _
    next checked _ => exact .put { checked with version := 1 }

theorem dropUser_step (request : DiscoveryManagerRequest) (users : UserTable) :
    UserStep request users (dropUser request users) := by
  unfold dropUser
  dsimp only
  split
  next => exact .refused _
  next => exact .delete

theorem changePrivilege_step (change : UserPrivilege → UserPrivilege → UserPrivilege)
    (request : DiscoveryManagerRequest) (s : Schema) (users : UserTable) :
    UserStep request users (changePrivilege change request s users) := by
  unfold changePrivilege
  dsimp only
  split
  next => exact .refused _
  next mem _ =>
    split
    next => exact .refused _
    next checked _ => exact .put (change checked mem)

theorem usersPlan_step {request : DiscoveryManagerRequest} {s : Schema} {users : UserTable}
    {p : Plan UserTable} (h : usersPlan request s users = some p) : UserStep request users p := by
  unfold usersPlan at h
  split at h
  case h_1 => exact Option.some.inj h ▸ createUser_step request s users
  case h_2 => exact Option.some.inj h ▸ dropUser_step request users
  case h_3 => exact Option.some.inj h ▸ changePrivilege_step grantedUser request s users
  case h_4 => exact Option.some.inj h ▸ changePrivilege_step revokedUser request s users
  case h_5 => simp at h

end EA
