import EA.DiscoveryStateMachine

namespace EA

open ByteString
open scoped List

/-- The order in which a walk over a hash map or a hash set meets its elements: it depends
on how the container was filled, so two processes that hold the same have different ones. -/
structure HashOrder where
  walk : {α : Type} → List α → List α
  walk_perm : ∀ {α : Type} (l : List α), walk l ~ l

def HashOrder.keyOrder : HashOrder := ⟨id, List.Perm.refl⟩

theorem HashOrder.mem_walk {order : HashOrder} {α : Type} {a : α} {l : List α} :
    a ∈ order.walk l ↔ a ∈ l := (order.walk_perm l).mem_iff

inductive QueryOpType where
  | queryUserPrivilege | queryNamespace | queryZone | queryServlet
  | queryGetConfig | queryListConfig | queryListConfigVersion
  | queryPrivilegeFlatten | queryInstance | queryInstanceFlatten
  | other
deriving DecidableEq

structure DiscoveryQueryRequest where
  opType : QueryOpType
  namespaceName : Option Bytes := none
  zone : Option Bytes := none
  servlet : Option Bytes := none
  userName : Option Bytes := none
  configName : Option Bytes := none
  configVersion : Option ModuleVersion := none
  instanceAddress : Option Bytes := none

structure QueryInstance where
  namespaceName : Bytes
  zoneName : Bytes
  servletName : Bytes
  env : Bytes
  color : Bytes
  version : Int
  status : Int
  address : Bytes
deriving DecidableEq

structure QueryUserPrivilege where
  username : Bytes
  namespaceName : Bytes
  servletRw : RW
  privilege : Bytes
deriving DecidableEq

structure DiscoveryQueryResponse where
  errcode : ErrCode := .success
  errmsg : Bytes := ascii "success"
  userPrivilege : List UserPrivilege := []
  namespaceInfos : List NameSpaceInfo := []
  zoneInfos : List ZoneInfo := []
  servletInfos : List ServletInfo := []
  configInfos : List ConfigInfo := []
  flattenPrivileges : List QueryUserPrivilege := []
  instances : List ServletInstance := []
  flattenInstances : List QueryInstance := []
deriving DecidableEq

def inputParamError (errmsg : Bytes) : DiscoveryQueryResponse :=
  { errcode := .inputParamError, errmsg := errmsg }

def getUserInfo (order : HashOrder) (request : DiscoveryQueryRequest) (users : UserTable) :
    DiscoveryQueryResponse :=
  match request.userName with
  | none => { userPrivilege := order.walk users.vals }
  | some userName =>
    match users[userName]? with
    | some user => { userPrivilege := [user] }
    | none => inputParamError (ascii "username not exist")

def flattenUser (user : UserPrivilege) : List QueryUserPrivilege :=
  (user.privilegeZone.map fun p =>
    ⟨user.username, user.namespaceName, p.rw, p.zone ++ ascii ".*"⟩) ++
  user.privilegeServlet.map fun p =>
    ⟨user.username, user.namespaceName, p.rw, p.zone ++ ascii "." ++ p.servletName⟩

/-- Insertion into a `std::multimap`: after the entries of the same key. -/
def insertMulti (entry : Bytes × QueryUserPrivilege) :
    List (Bytes × QueryUserPrivilege) → List (Bytes × QueryUserPrivilege)
  | [] => [entry]
  | head :: rest =>
    if compare entry.1 head.1 = .lt then entry :: head :: rest else head :: insertMulti entry rest

abbrev NamespacePrivileges := Table Bytes (List (Bytes × QueryUserPrivilege))

def addFlattened (m : NamespacePrivileges) (p : QueryUserPrivilege) : NamespacePrivileges :=
  m.insert p.namespaceName (insertMulti (p.username, p) (m.getD p.namespaceName []))

def constructQueryResponseForServletPrivilege (m : NamespacePrivileges) (user : UserPrivilege) :
    NamespacePrivileges :=
  (flattenUser user).foldl addFlattened m

/-- The names are read through `turbo::Trim`, which is a parameter. -/
def getFlattenServletPrivilege (trim : Bytes → Bytes) (order : HashOrder)
    (request : DiscoveryQueryRequest) (users : UserTable) : DiscoveryQueryResponse :=
  let userName := trim (request.userName.getD [])
  let namespaceName := trim (request.namespaceName.getD [])
  let everyone := if userName = [] ∧ namespaceName = [] then order.walk users.vals else []
  let named := if userName ≠ [] then (users[userName]?).toList else []
  let inNamespace := if namespaceName ≠ [] then
    (order.walk users.vals).filter (·.namespaceName = namespaceName) else []
  let privileges := (everyone ++ named ++ inNamespace).foldl
    constructQueryResponseForServletPrivilege ∅
  { flattenPrivileges := privileges.vals.flatMap fun entries => entries.map Prod.snd }

def getNamespaceInfo (order : HashOrder) (request : DiscoveryQueryRequest)
    (m : NamespaceManager) : DiscoveryQueryResponse :=
  match request.namespaceName with
  | none => { namespaceInfos := order.walk m.infoMap.vals }
  | some namespaceName =>
    match m.idMap[namespaceName]? with
    | some id => { namespaceInfos := [m.infoMap.getD id default] }
    | none => inputParamError (ascii "namespace not exist")

def getZoneInfo (order : HashOrder) (request : DiscoveryQueryRequest) (m : ZoneManager) :
    DiscoveryQueryResponse :=
  match request.zone with
  | none => { zoneInfos := order.walk m.infoMap.vals }
  | some zone =>
    match m.idMap[makeZoneKey (request.namespaceName.getD []) zone]? with
    | some id => { zoneInfos := [m.infoMap.getD id default] }
    | none => inputParamError (ascii "zone not exist")

def getServletInfo (order : HashOrder) (request : DiscoveryQueryRequest) (m : ServletManager) :
    DiscoveryQueryResponse :=
  match request.servlet with
  | none => { servletInfos := order.walk m.infoMap.vals }
  | some servlet =>
    let zone := makeZoneKey (request.namespaceName.getD []) (request.zone.getD [])
    match m.idMap[makeServletKey zone servlet]? with
    | some id => { servletInfos := [m.infoMap.getD id default] }
    | none => inputParamError (ascii "servlet not exist")

def getConfig (request : DiscoveryQueryRequest) (configs : ConfigTable) :
    DiscoveryQueryResponse :=
  match request.configName with
  | none => inputParamError (ascii "config name not set")
  | some name =>
    match configs[name]? with
    | none => inputParamError (ascii "config not exist")
    | some versions =>
      match request.configVersion with
      | none =>
        match versions.toList.getLast? with
        | none => inputParamError (ascii "config not exist")
        | some newest => { configInfos := [newest.2] }
      | some version =>
        match versions[version]? with
        | none => inputParamError (ascii "config not exist")
        | some info => { configInfos := [info] }

def listConfig (order : HashOrder) (configs : ConfigTable) : DiscoveryQueryResponse :=
  { configInfos := (order.walk configs.keys).map fun name => { name := name } }

def listConfigVersion (request : DiscoveryQueryRequest) (configs : ConfigTable) :
    DiscoveryQueryResponse :=
  match request.configName with
  | none => inputParamError (ascii "config name not set")
  | some name =>
    match configs[name]? with
    | none => inputParamError (ascii "config not exist")
    | some versions => { configInfos := versions.vals }

def queryInstance (request : DiscoveryQueryRequest) (m : InstanceManager) :
    DiscoveryQueryResponse :=
  match request.instanceAddress with
  | none => inputParamError (ascii "no instance address")
  | some address =>
    match m.instanceInfo[address]? with
    | none => inputParamError (ascii "instance not exists")
    | some info => { instances := [info] }

def instanceInfoToQuery (info : ServletInstance) : QueryInstance :=
  ⟨info.namespaceName, info.zoneName, info.servletName, info.env.getD [], info.color.getD [],
    info.version, info.status.getD 0, info.address⟩

/-- The answer for one index: all its addresses, looked up in `_instance_info`. -/
def flattenIndexed (order : HashOrder) (m : InstanceManager) (index : Index Bytes Bytes)
    (key errmsg : Bytes) : DiscoveryQueryResponse :=
  match index[key]? with
  | none => inputParamError errmsg
  | some addresses =>
    { flattenInstances := (order.walk addresses.toList).map fun address =>
        instanceInfoToQuery (m.instanceInfo.getD address default) }

def queryInstanceFlatten (order : HashOrder) (request : DiscoveryQueryRequest)
    (m : InstanceManager) : DiscoveryQueryResponse :=
  let namespaceName := request.namespaceName.getD []
  let zone := request.zone.getD []
  let servlet := request.servlet.getD []
  if namespaceName = [] then
    { flattenInstances := (order.walk m.instanceInfo.vals).map instanceInfoToQuery }
  else if zone = [] then
    flattenIndexed order m m.namespaceInstance namespaceName
      (ascii "no instance in namespace " ++ namespaceName)
  else if servlet = [] then
    flattenIndexed order m m.zoneInstance (makeZoneKey namespaceName zone)
      (ascii "no instance in namespace " ++ namespaceName ++ ascii "." ++ zone)
  else
    flattenIndexed order m m.servletInstance (makeServletKey (makeZoneKey namespaceName zone) servlet)
      (ascii "no instance in " ++ namespaceName ++ ascii "." ++ zone ++ ascii "." ++ servlet)

/-- The dispatch of `DiscoveryServer::discovery_query`. -/
def discoveryQuery (trim : Bytes → Bytes) (order : HashOrder) (request : DiscoveryQueryRequest)
    (m : Memory) : DiscoveryQueryResponse :=
  match request.opType with
  | .queryUserPrivilege => getUserInfo order request m.users
  | .queryNamespace => getNamespaceInfo order request m.schema.namespaces
  | .queryZone => getZoneInfo order request m.schema.zones
  | .queryServlet => getServletInfo order request m.schema.servlets
  | .queryGetConfig => getConfig request m.configs
  | .queryListConfig => listConfig order m.configs
  | .queryListConfigVersion => listConfigVersion request m.configs
  | .queryPrivilegeFlatten => getFlattenServletPrivilege trim order request m.users
  | .queryInstance => queryInstance request m.instances
  | .queryInstanceFlatten => queryInstanceFlatten order request m.instances
  | .other => inputParamError (ascii "invalid op_type")

/-- The same answer but for the order of its lists. -/
structure DiscoveryQueryResponse.Shuffles (a b : DiscoveryQueryResponse) : Prop where
  errcode : a.errcode = b.errcode
  errmsg : a.errmsg = b.errmsg
  userPrivilege : a.userPrivilege ~ b.userPrivilege
  namespaceInfos : a.namespaceInfos ~ b.namespaceInfos
  zoneInfos : a.zoneInfos ~ b.zoneInfos
  servletInfos : a.servletInfos ~ b.servletInfos
  configInfos : a.configInfos ~ b.configInfos
  flattenPrivileges : a.flattenPrivileges ~ b.flattenPrivileges
  instances : a.instances ~ b.instances
  flattenInstances : a.flattenInstances ~ b.flattenInstances

theorem DiscoveryQueryResponse.Shuffles.refl (a : DiscoveryQueryResponse) : a.Shuffles a :=
  ⟨rfl, rfl, .refl _, .refl _, .refl _, .refl _, .refl _, .refl _, .refl _, .refl _⟩

end EA
