import EA.DiscoveryClient

namespace EA

open ByteString

/-- What a mutating method is for, with the arguments of the operation. -/
inductive Operation where
  | createConfig (info : ConfigInfo)
  | removeConfig (name : Bytes) (version : Option ModuleVersion)
  | createNamespace (info : NameSpaceInfo)
  | removeNamespace (ns : Bytes)
  | modifyNamespace (info : NameSpaceInfo)
  | createZone (info : ZoneInfo)
  | removeZone (ns zone : Bytes)
  | modifyZone (info : ZoneInfo)
  | createServlet (info : ServletInfo)
  | removeServlet (ns zone servlet : Bytes)
  | modifyServlet (info : ServletInfo)

/-- The request that says the operation. -/
def Operation.request : Operation → ManagerRequest
  | .createConfig info => { opType := some .opCreateConfig, configInfo := some info }
  | .removeConfig name version =>
    { opType := some .opRemoveConfig, configInfo := some { name := name, version := version } }
  | .createNamespace info => { opType := some .opCreateNamespace, namespaceInfo := some info }
  | .removeNamespace ns =>
    { opType := some .opDropNamespace, namespaceInfo := some { namespaceName := ns } }
  | .modifyNamespace info => { opType := some .opModifyNamespace, namespaceInfo := some info }
  | .createZone info => { opType := some .opCreateZone, zoneInfo := some info }
  | .removeZone ns zone =>
    { opType := some .opDropZone, zoneInfo := some { namespaceName := ns, zone := zone } }
  | .modifyZone info => { opType := some .opModifyZone, zoneInfo := some info }
  | .createServlet info => { opType := some .opCreateServlet, servletInfo := some info }
  | .removeServlet ns zone servlet =>
    { opType := some .opDropServlet
      servletInfo := some { namespaceName := ns, zone := zone, servletName := servlet } }
  | .modifyServlet info => { opType := some .opModifyServlet, servletInfo := some info }

/-- The handler of the operation on the server, with the operation's arguments. -/
def Operation.plan (op : Operation) (m : Memory) : Plan Memory :=
  let schema (p : Plan Schema) := p.map fun s => { m with schema := s }
  let configs (p : Plan ConfigTable) := p.map fun c => { m with configs := c }
  match op with
  | .createConfig info =>
    configs (EA.createConfig { opType := .opCreateConfig, configInfo := info } m.configs)
  | .removeConfig name version =>
    configs (EA.removeConfig
      { opType := .opRemoveConfig, configInfo := { name := name, version := version } } m.configs)
  | .createNamespace info =>
    schema (EA.createNamespace { opType := .opCreateNamespace, namespaceInfo := info } m.schema)
  | .removeNamespace ns =>
    schema (dropNamespace
      { opType := .opDropNamespace, namespaceInfo := { namespaceName := ns } } m.schema)
  | .modifyNamespace info =>
    schema (EA.modifyNamespace { opType := .opModifyNamespace, namespaceInfo := info } m.schema)
  | .createZone info => schema (EA.createZone { opType := .opCreateZone, zoneInfo := info } m.schema)
  | .removeZone ns zone =>
    schema (dropZone
      { opType := .opDropZone, zoneInfo := { namespaceName := ns, zone := zone } } m.schema)
  | .modifyZone info => schema (EA.modifyZone { opType := .opModifyZone, zoneInfo := info } m.schema)
  | .createServlet info =>
    schema (EA.createServlet { opType := .opCreateServlet, servletInfo := info } m.schema)
  | .removeServlet ns zone servlet =>
    schema (dropServlet
      { opType := .opDropServlet
        servletInfo := { namespaceName := ns, zone := zone, servletName := servlet } } m.schema)
  | .modifyServlet info =>
    schema (EA.modifyServlet { opType := .opModifyServlet, servletInfo := info } m.schema)

def Operation.perform (serialises : MetaValue → Bool) (op : Operation) (env : Env) (r : Replica) :
    Replica × Reply :=
  let out := (op.plan r.memory).run serialises env.dbOk r.db
  (⟨out.1.1, out.1.2⟩, out.2)

section Server

/-- The request as the getters of the server read it. `unset` is what `op_type()`
gives when the op type was never set. -/
def ManagerRequest.received (unset : OpType) (request : ManagerRequest) : DiscoveryManagerRequest where
  opType := request.opType.getD unset
  namespaceInfo := request.namespaceInfo.getD {}
  zoneInfo := request.zoneInfo.getD {}
  servletInfo := request.servletInfo.getD {}
  configInfo := request.configInfo.getD {}

def refusal (errmsg : String) : ManagerResponse := ⟨.inputParamError, ascii errmsg⟩

/-- `DiscoveryServer::discovery_manager` with the `process_schema_info` that it
dispatches to, on an initialised leader: the request for the log, or the refusal.
The client's requests have no user and no instance part, and the operations of the
other state machines are left out. -/
def discoveryManager (unset : OpType) (request : ManagerRequest) :
    Except ManagerResponse DiscoveryManagerRequest :=
  let unlessMissing (present : Bool) (errmsg : String) :=
    if present then .ok (request.received unset) else .error (refusal errmsg)
  match request.opType.getD unset with
  | .opCreateUser | .opDropUser | .opAddPrivilege | .opDropPrivilege =>
    .error (refusal "no user_privilege")
  | .opCreateNamespace | .opModifyNamespace | .opDropNamespace =>
    unlessMissing request.namespaceInfo.isSome "no namespace_info"
  | .opCreateZone | .opModifyZone | .opDropZone =>
    unlessMissing request.zoneInfo.isSome "no zone_info"
  | .opCreateServlet | .opModifyServlet | .opDropServlet =>
    unlessMissing request.servletInfo.isSome "no servlet info"
  | .opCreateConfig | .opRemoveConfig => unlessMissing request.configInfo.isSome "no config_info"
  | .opAddInstance | .opDropInstance | .opUpdateInstance => .error (refusal "no instance info")
  | .other => .error (refusal "invalid op_type")

variable (serialises : MetaValue → Bool) (unset : OpType) (op : Operation)

theorem discoveryManager_request :
    discoveryManager unset op.request = .ok (op.request.received unset) := by
  cases op <;> rfl

theorem handle_request (now : Int) (m : Memory) :
    handle (op.request.received unset) now m = op.plan m := by
  cases op <;> rfl

theorem onApply_request (env : Env) (r : Replica) :
    onApply serialises (op.request.received unset) env r = op.perform serialises env r := by
  rw [onApply, handle_request]
  rfl

end Server

/-- A quota of 0 is the default argument and stands for none. -/
def givenQuota (quota : Int) : Option Int := if quota ≠ 0 then some quota else none

/-- The creation of a config with this content, whose type and version are given as text. -/
def Operation.ofTexts (lib : ClientLib) (name content version type : Bytes) :
    Except Status Operation :=
  (stringToConfigType lib.strings lib.types type).bind fun typeGiven =>
    (stringToVersion lib.strings version).map fun versionGiven =>
      .createConfig { name := name, version := some versionGiven, content := content
                      type := typeGiven }

/-- The creation of the config that a json file holds, unless it lacks a name, a version other
than 0.0.0 or a content. -/
def Operation.ofJsonFile (lib : ClientLib) (path : Bytes) : Except Status Operation :=
  (lib.readFile path).bind fun json =>
    (loadProto lib.jsonToConfig json).bind fun info =>
      if info.name ≠ [] ∧ info.version.getD {} ≠ {} ∧ info.content ≠ [] then
        .ok (.createConfig info)
      else if info.name ≠ [] ∧ info.version.getD {} = {} then
        .error ⟨.dataLoss, ascii "miss field version"⟩
      else .error ⟨.dataLoss, ascii "miss required field name"⟩

/-- The operation that a call means, or the error of its local checks. -/
def ClientCall.meaning (lib : ClientLib) : ClientCall → Except Status Operation
  | .createConfig name content version type =>
    Operation.ofTexts lib name content version type
  | .createConfigInfo info => .ok (.createConfig info)
  | .createConfigByFile name path type version =>
    (lib.readFile path).bind fun content => Operation.ofTexts lib name content version type
  | .createConfigByJson path => Operation.ofJsonFile lib path
  | .removeConfig name version =>
    (stringToVersion lib.strings version).map fun v => .removeConfig name (some v)
  | .removeConfigModule name version => .ok (.removeConfig name (some version))
  | .removeConfigAllVersion name => .ok (.removeConfig name none)
  | .createNamespaceInfo info => .ok (.createNamespace info)
  | .createNamespace ns quota => (checkValidNameType ns).map fun _ =>
    .createNamespace { namespaceName := ns, quota := givenQuota quota }
  | .createNamespaceByJson json => (loadProto lib.jsonToNamespace json).map .createNamespace
  | .createNamespaceByFile path =>
    (loadProtoFromFile lib lib.jsonToNamespace path).map .createNamespace
  | .removeNamespace ns => (checkValidNameType ns).map fun _ => .removeNamespace ns
  | .modifyNamespace info => .ok (.modifyNamespace info)
  | .modifyNamespaceByJson json => (loadProto lib.jsonToNamespace json).map .modifyNamespace
  | .modifyNamespaceByFile path =>
    (loadProtoFromFile lib lib.jsonToNamespace path).map .modifyNamespace
  | .createZoneInfo info => .ok (.createZone info)
  | .createZone ns zone quota =>
    .ok (.createZone { namespaceName := ns, zone := zone, quota := givenQuota quota })
  | .createZoneByJson json => (loadProto lib.jsonToZone json).map .createZone
  | .createZoneByFile path => (loadProtoFromFile lib lib.jsonToZone path).map .createZone
  | .removeZone ns zone => .ok (.removeZone ns zone)
  | .modifyZone info => .ok (.modifyZone info)
  | .modifyZoneByJson json => (loadProto lib.jsonToZone json).map .modifyZone
  | .modifyZoneByFile path => (loadProtoFromFile lib lib.jsonToZone path).map .modifyZone
  | .createServletInfo info => .ok (.createServlet info)
  | .createServlet ns zone servlet =>
    .ok (.createServlet { namespaceName := ns, zone := zone, servletName := servlet })
  | .createServletByJson json => (loadProto lib.jsonToServlet json).map .createServlet
  | .createServletByFile path => (loadProtoFromFile lib lib.jsonToServlet path).map .createServlet
  | .removeServlet ns zone servlet => .ok (.removeServlet ns zone servlet)
  | .modifyServlet info => .ok (.modifyServlet info)
  | .modifyServletByJson json => (loadProto lib.jsonToServlet json).map .modifyServlet
  | .modifyServletByFile path => (loadProtoFromFile lib lib.jsonToServlet path).map .modifyServlet

/-- The methods that read the errcode, with the status they make of a rejection. -/
def ClientCall.rejected : ClientCall → Option StatusCode
  | .createConfig .. | .createConfigInfo _ | .createConfigByFile .. | .createConfigByJson _ =>
    some .unavailable
  | .removeConfig .. | .removeConfigModule .. | .removeConfigAllVersion _ => some .unknown
  | _ => none

/-- What a call makes of the request that says its operation. -/
def ClientCall.written : ClientCall → ManagerRequest → ManagerRequest
  | .createConfigByFile .., request | .createConfigByJson _, request =>
    { request with opType := none }
  | .removeConfigModule name version, request =>
    { request with configInfo := some { name := name, version := some ⟨version.major, version.patch, 0⟩ } }
  | .modifyServlet _, request | .modifyServletByJson _, request | .modifyServletByFile _, request =>
    { request with opType := some .opCreateServlet }
  | _, request => request

theorem map_map_except {α β γ : Type} (built : Except Status α) (f : α → β) (g : β → γ) :
    (built.map f).map g = built.map fun a => g (f a) := by
  cases built <;> rfl

theorem ofTexts_eq (lib : ClientLib) (name content version type : Bytes) :
    Operation.ofTexts lib name content version type =
      (ConfigInfoBuilder.buildFromContent lib name content version type).map .createConfig := by
  unfold Operation.ofTexts ConfigInfoBuilder.buildFromContent
  cases stringToConfigType lib.strings lib.types type with
  | error err => rfl
  | ok typeGiven => cases stringToVersion lib.strings version <;> rfl

theorem ofJsonFile_eq (lib : ClientLib) (path : Bytes) :
    Operation.ofJsonFile lib path =
      (ConfigInfoBuilder.buildFromJsonFile lib path).map .createConfig := by
  unfold Operation.ofJsonFile ConfigInfoBuilder.buildFromJsonFile ConfigInfoBuilder.buildFromJson
  cases lib.readFile path with
  | error err => rfl
  | ok json =>
    dsimp only [Except.bind]
    cases loadProto lib.jsonToConfig json with
    | error err => rfl
    | ok info =>
      by_cases name : info.name = []
      · simp [name, Except.map]
      · by_cases version : info.version.getD {} = {}
        · simp [name, version, Except.map]
        · by_cases content : info.content = [] <;> simp [name, version, content, Except.map]

/-- Every method is one submission of the request that it writes. -/
theorem ClientCall.run_eq (lib : ClientLib) (send : ManagerSender) (call : ClientCall) :
    call.run lib send = submit send call.rejected
      ((call.meaning lib).map fun op => call.written op.request) := by
  cases call with
  | createServletByJson json =>
    simp only [run, DiscoveryClient.createServletByJson, meaning]
    cases loadProto lib.jsonToServlet json <;> rfl
  | createServletByFile path =>
    simp only [run, DiscoveryClient.createServletByFile, meaning]
    cases loadProtoFromFile lib lib.jsonToServlet path <;> rfl
  | modifyServletByJson json =>
    simp only [run, DiscoveryClient.modifyServletByJson, meaning]
    cases loadProto lib.jsonToServlet json <;> rfl
  | modifyServletByFile path =>
    simp only [run, DiscoveryClient.modifyServletByFile, meaning]
    cases loadProtoFromFile lib lib.jsonToServlet path <;> rfl
  | createConfig => rw [meaning, ofTexts_eq, map_map_except]; rfl
  | createConfigByFile name path type version =>
    rw [meaning, run, DiscoveryClient.createConfigByFile, ConfigInfoBuilder.buildFromFile]
    cases lib.readFile path with
    | error err => rfl
    | ok content =>
      dsimp only [Except.bind]
      rw [ofTexts_eq, map_map_except]
      rfl
  | createConfigByJson => rw [meaning, ofJsonFile_eq, map_map_except]; rfl
  | removeConfig => rw [meaning, map_map_except]; rfl
  | createNamespace => rw [meaning, map_map_except]; rfl
  | createNamespaceByJson => rw [meaning, map_map_except]; rfl
  | createNamespaceByFile => rw [meaning, map_map_except]; rfl
  | removeNamespace => rw [meaning, map_map_except]; rfl
  | modifyNamespaceByJson => rw [meaning, map_map_except]; rfl
  | modifyNamespaceByFile => rw [meaning, map_map_except]; rfl
  | createZoneByJson => rw [meaning, map_map_except]; rfl
  | createZoneByFile => rw [meaning, map_map_except]; rfl
  | modifyZoneByJson => rw [meaning, map_map_except]; rfl
  | modifyZoneByFile => rw [meaning, map_map_except]; rfl
  | _ => rfl

end EA
