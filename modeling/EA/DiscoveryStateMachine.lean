import EA.ConfigManager
import EA.InstanceManager
import EA.PrivilegeManager
import EA.Lib.Reach

namespace EA

open ByteString

structure Memory where
  schema : Schema := {}
  users : UserTable := ∅
  configs : ConfigTable := ∅
  instances : InstanceManager := {}

/-- A replica of the discovery state machine with its meta database. -/
structure Replica where
  db : MetaDb := ∅
  memory : Memory := {}

/-- What a handler consults besides the log entry and the replica. -/
structure Env where
  now : Int
  dbOk : Bool

/-- The dispatch of `DiscoveryStateMachine::on_apply`. -/
def handle (request : DiscoveryManagerRequest) (now : Int) (m : Memory) : Plan Memory :=
  let schema (p : Plan Schema) := p.map fun s => { m with schema := s }
  let users (p : Plan UserTable) := p.map fun u => { m with users := u }
  let configs (p : Plan ConfigTable) := p.map fun c => { m with configs := c }
  let instances (p : Plan InstanceManager) := p.map fun i => { m with instances := i }
  match request.opType with
  | .opCreateUser => users (createUser request m.schema m.users)
  | .opDropUser => users (dropUser request m.users)
  | .opAddPrivilege => users (addPrivilege request m.schema m.users)
  | .opDropPrivilege => users (dropPrivilege request m.schema m.users)
  | .opCreateNamespace => schema (createNamespace request m.schema)
  | .opDropNamespace => schema (dropNamespace request m.schema)
  | .opModifyNamespace => schema (modifyNamespace request m.schema)
  | .opCreateZone => schema (createZone request m.schema)
  | .opDropZone => schema (dropZone request m.schema)
  | .opModifyZone => schema (modifyZone request m.schema)
  | .opCreateServlet => schema (createServlet request m.schema)
  | .opDropServlet => schema (dropServlet request m.schema)
  | .opModifyServlet => schema (modifyServlet request m.schema)
  | .opCreateConfig => configs (createConfig request m.configs)
  | .opRemoveConfig => configs (removeConfig request m.configs)
  | .opAddInstance => instances (addInstance request now m.schema m.instances)
  | .opDropInstance => instances (dropInstance request now m.instances)
  | .opUpdateInstance => instances (updateInstance request m.instances)
  | .other => .refuse .unknownReqType "unknown request type" m

def onApply (serialises : MetaValue → Bool) (request : DiscoveryManagerRequest) (env : Env)
    (r : Replica) : Replica × Reply :=
  let out := (handle request env.now r.memory).run serialises env.dbOk r.db
  (⟨out.1.1, out.1.2⟩, out.2)

/-- The records that a one-byte prefix iterator visits. -/
def records (identify : Bytes) (db : MetaDb) : List (Bytes × MetaValue) :=
  Table.scan (fun key => identify.isPrefixOf key) db

def loadUser (users : UserTable) (e : Bytes × MetaValue) : Option UserTable :=
  match e.2 with
  | .userPrivilege user => some (users.insert (e.1.drop privilegeIdentify.length) user)
  | _ => none

/-- `PrivilegeManager::load_snapshot`. -/
def loadUsers (db : MetaDb) : Option UserTable :=
  (records privilegeIdentify db).foldlM loadUser ∅

/-- The counters are not cleared. -/
def Schema.clear (s : Schema) : Schema where
  namespaces := { maxNamespaceId := s.namespaces.maxNamespaceId }
  zones := { maxZoneId := s.zones.maxZoneId }
  servlets := { maxServletId := s.servlets.maxServletId }

def loadMaxIdSnapshot (maxKey : Bytes) (id : Nat) (s : Schema) : Schema :=
  if maxKey = maxNamespaceIdKey then
    { s with namespaces := { s.namespaces with maxNamespaceId := id } }
  else if maxKey = maxZoneIdKey then { s with zones := { s.zones with maxZoneId := id } }
  else if maxKey = maxServletIdKey then
    { s with servlets := { s.servlets with maxServletId := id } }
  else s

def loadNamespaceSnapshot (value : MetaValue) (s : Schema) : Option Schema :=
  match value with
  | .namespaceInfo info => some { s with namespaces := s.namespaces.setNamespaceInfo info }
  | _ => none

def loadZoneSnapshot (value : MetaValue) (s : Schema) : Option Schema :=
  match value with
  | .zoneInfo info => some { s with
      zones := s.zones.setZoneInfo info
      namespaces := s.namespaces.addZoneId info.namespaceId info.zoneId }
  | _ => none

def loadServletSnapshot (value : MetaValue) (s : Schema) : Option Schema :=
  match value with
  | .servletInfo info => some { s with
      servlets := s.servlets.setServletInfo info
      zones := s.zones.addServletId info.zoneId info.servletId }
  | _ => none

def maxIdPrefix : Bytes := schemaIdentify ++ maxIdSchemaIdentify
def namespacePrefix : Bytes := schemaIdentify ++ namespaceSchemaIdentify
def zonePrefix : Bytes := schemaIdentify ++ zoneSchemaIdentify
def servletPrefix : Bytes := schemaIdentify ++ servletSchemaIdentify

/-- One round of the loop of `SchemaManager::load_snapshot`. -/
def loadSchemaRecord (s : Schema) (e : Bytes × MetaValue) : Option Schema :=
  if zonePrefix.isPrefixOf e.1 then loadZoneSnapshot e.2 s
  else if servletPrefix.isPrefixOf e.1 then loadServletSnapshot e.2 s
  else if namespacePrefix.isPrefixOf e.1 then loadNamespaceSnapshot e.2 s
  else if maxIdPrefix.isPrefixOf e.1 then
    match e.2 with
    | .raw bytes => some (loadMaxIdSnapshot (e.1.drop maxIdPrefix.length) (fromLe bytes) s)
    | _ => none
  else some s

def loadSchema (db : MetaDb) (s : Schema) : Option Schema :=
  (records schemaIdentify db).foldlM loadSchemaRecord s.clear

def storedVersion (info : ConfigInfo) : ModuleVersion := info.version.getD default

def loadConfigSnapshot (configs : ConfigTable) (e : Bytes × MetaValue) : Option ConfigTable :=
  match e.2 with
  | .configInfo info => some (configs.insert info.name
      ((configs.getD info.name default).insert (storedVersion info) info))
  | _ => none

/-- `ConfigManager::load_snapshot`. -/
def loadConfigs (db : MetaDb) : Option ConfigTable :=
  (records configIdentify db).foldlM loadConfigSnapshot ∅

def loadInstanceSnapshot (m : InstanceManager) (e : Bytes × MetaValue) :
    Option InstanceManager :=
  match e.2 with
  | .instanceInfo info => some (m.setInstanceInfo info)
  | _ => none

/-- `InstanceManager::load_snapshot`. -/
def loadInstances (db : MetaDb) : Option InstanceManager :=
  (records discoveryIdentify db).foldlM loadInstanceSnapshot {}

/-- The part of `on_snapshot_load` after the database has been restored. -/
def loadSnapshot (db : MetaDb) (m : Memory) : Option Memory := do
  let users ← loadUsers db
  let schema ← loadSchema db m.schema
  let configs ← loadConfigs db
  let instances ← loadInstances db
  some ⟨schema, users, configs, instances⟩

inductive DiscoveryEvent where
  | apply (request : DiscoveryManagerRequest) (env : Env)
  /-- The managers of the running process reload the database. -/
  | reload
  /-- The database is loaded by a fresh process. -/
  | restart

def Replica.step (serialises : MetaValue → Bool) (r : Replica) : DiscoveryEvent → Option Replica
  | .apply request env => some (onApply serialises request env r).1
  | .reload => (loadSnapshot r.db r.memory).map fun m => { r with memory := m }
  | .restart => (loadSnapshot r.db {}).map fun m => { r with memory := m }

/-- The replicas that a run of allowed events reaches from the empty state. -/
def Reachable (serialises : MetaValue → Bool) (ok : Replica → DiscoveryEvent → Prop) :
    Replica → Prop :=
  Reach.From (Replica.step serialises) ok {}

end EA
