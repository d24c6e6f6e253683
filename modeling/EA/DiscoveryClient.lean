import EA.ClientUtility
import EA.DiscoveryQuery

namespace EA

open ByteString

/-- A `DiscoveryManagerRequest` as the client fills it: a part that was never
set is `none`, the op type as well. -/
structure ManagerRequest where
  opType : Option OpType := none
  namespaceInfo : Option NameSpaceInfo := none
  zoneInfo : Option ZoneInfo := none
  servletInfo : Option ServletInfo := none
  configInfo : Option ConfigInfo := none
deriving DecidableEq

structure ManagerResponse where
  errcode : ErrCode
  errmsg : Bytes := []

/-- `BaseMessageSender::discovery_manager` under the retry count of the call. -/
abbrev ManagerSender := ManagerRequest → Except Status ManagerResponse

/-- `BaseMessageSender::discovery_query` under the retry count of the call. -/
abbrev QuerySender := DiscoveryQueryRequest → Except Status DiscoveryQueryResponse

/-- What the client uses besides the sender: the string library, the enumerators,
the reading of files and `json2pb::JsonToProtoMessage` for the messages it loads. -/
structure ClientLib where
  strings : StringLib
  types : ConfigTypes
  readFile : Bytes → Except Status Bytes
  jsonToNamespace : Bytes → Except Bytes NameSpaceInfo
  jsonToZone : Bytes → Except Bytes ZoneInfo
  jsonToServlet : Bytes → Except Bytes ServletInfo
  jsonToConfig : Bytes → Except Bytes ConfigInfo

/-- `Loader::load_proto`. -/
def loadProto {α : Type} (parse : Bytes → Except Bytes α) (content : Bytes) : Except Status α :=
  match parse content with
  | .error err => .error ⟨.invalidArgument, err⟩
  | .ok message => .ok message

/-- `Loader::load_proto_from_file`. -/
def loadProtoFromFile {α : Type} (lib : ClientLib) (parse : Bytes → Except Bytes α) (path : Bytes) :
    Except Status α :=
  match lib.readFile path with
  | .error err => .error err
  | .ok content => loadProto parse content

namespace ConfigInfoBuilder

/-- The overload of `build_from_content` with strings for the version and the type. -/
def buildFromContent (lib : ClientLib) (name content version type : Bytes) :
    Except Status ConfigInfo :=
  match stringToConfigType lib.strings lib.types type with
  | .error err => .error err
  | .ok configType =>
    match stringToVersion lib.strings version with
    | .error err => .error err
    | .ok tmpVersion =>
      .ok { name := name, content := content, version := some tmpVersion, type := configType }

def buildFromFile (lib : ClientLib) (name filePath version type : Bytes) :
    Except Status ConfigInfo :=
  match lib.readFile filePath with
  | .error err => .error err
  | .ok content => buildFromContent lib name content version type

def buildFromJson (lib : ClientLib) (jsonStr : Bytes) : Except Status ConfigInfo :=
  match loadProto lib.jsonToConfig jsonStr with
  | .error err => .error err
  | .ok info =>
    if info.name = [] then .error ⟨.dataLoss, ascii "miss required field name"⟩
    else if info.version.getD {} = {} then .error ⟨.dataLoss, ascii "miss field version"⟩
    -- the message for the content names the name
    else if info.content = [] then .error ⟨.dataLoss, ascii "miss required field name"⟩
    else .ok info

def buildFromJsonFile (lib : ClientLib) (jsonPath : Bytes) : Except Status ConfigInfo :=
  match lib.readFile jsonPath with
  | .error err => .error err
  | .ok content => buildFromJson lib content

end ConfigInfoBuilder

/-- What a method did: the request it handed to the sender, if it came to that,
and the status it returned. -/
structure Outcome where
  sent : Option ManagerRequest
  status : Except Status Unit

/-- The common end of the methods. A request that could not be built ends the
method; `rejected` is the status made of an errcode other than SUCCESS, by the
methods that read the errcode. -/
def submit (send : ManagerSender) (rejected : Option StatusCode)
    (built : Except Status ManagerRequest) : Outcome :=
  match built with
  | .error err => ⟨none, .error err⟩
  | .ok request =>
    match send request with
    | .error err => ⟨some request, .error err⟩
    | .ok response =>
      match rejected with
      | none => ⟨some request, .ok ()⟩
      | some code =>
        if response.errcode ≠ .success then ⟨some request, .error ⟨code, response.errmsg⟩⟩
        else ⟨some request, .ok ()⟩

namespace DiscoveryClient

variable (lib : ClientLib) (send : ManagerSender)

def createConfig (configName content version configType : Bytes) : Outcome :=
  submit send (some .unavailable) <|
    (ConfigInfoBuilder.buildFromContent lib configName content version configType).map fun info =>
      { opType := some .opCreateConfig, configInfo := some info }

def createConfigInfo (info : ConfigInfo) : Outcome :=
  submit send (some .unavailable) <|
    .ok { opType := some .opCreateConfig, configInfo := some info }

/-- The op type is never set. -/
def createConfigByFile (configName path configType version : Bytes) : Outcome :=
  submit send (some .unavailable) <|
    (ConfigInfoBuilder.buildFromFile lib configName path version configType).map fun info =>
      { configInfo := some info }

/-- The op type is never set. -/
def createConfigByJson (jsonPath : Bytes) : Outcome :=
  submit send (some .unavailable) <|
    (ConfigInfoBuilder.buildFromJsonFile lib jsonPath).map fun info =>
      { configInfo := some info }

def removeConfig (configName version : Bytes) : Outcome :=
  submit send (some .unknown) <|
    (stringToVersion lib.strings version).map fun v =>
      { opType := some .opRemoveConfig, configInfo := some { name := configName, version := some v } }

/-- The minor version is set twice, the second time to the patch. -/
def removeConfigModule (configName : Bytes) (version : ModuleVersion) : Outcome :=
  let v : ModuleVersion := { major := version.major }
  let v := { v with minor := version.minor }
  let v := { v with minor := version.patch }
  submit send (some .unknown) <|
    .ok { opType := some .opRemoveConfig, configInfo := some { name := configName, version := some v } }

def removeConfigAllVersion (configName : Bytes) : Outcome :=
  submit send (some .unknown) <|
    .ok { opType := some .opRemoveConfig, configInfo := some { name := configName } }

/-- The methods on namespaces, zones and servlets return OK without a look at the
errcode. -/
def submitUnread (built : Except Status ManagerRequest) : Outcome := submit send none built

def createNamespaceInfo (info : NameSpaceInfo) : Outcome :=
  submitUnread send <| .ok { opType := some .opCreateNamespace, namespaceInfo := some info }

def createNamespace (ns : Bytes) (quota : Int) : Outcome :=
  submitUnread send <| (checkValidNameType ns).map fun _ =>
    { opType := some .opCreateNamespace
      namespaceInfo := some {
        namespaceName := ns
        quota := if quota ≠ 0 then some quota else none } }

def createNamespaceByJson (jsonStr : Bytes) : Outcome :=
  submitUnread send <| (loadProto lib.jsonToNamespace jsonStr).map fun info =>
    { opType := some .opCreateNamespace, namespaceInfo := some info }

def createNamespaceByFile (path : Bytes) : Outcome :=
  submitUnread send <| (loadProtoFromFile lib lib.jsonToNamespace path).map fun info =>
    { opType := some .opCreateNamespace, namespaceInfo := some info }

def removeNamespace (ns : Bytes) : Outcome :=
  submitUnread send <| (checkValidNameType ns).map fun _ =>
    { opType := some .opDropNamespace, namespaceInfo := some { namespaceName := ns } }

def modifyNamespace (nsInfo : NameSpaceInfo) : Outcome :=
  submitUnread send <| .ok { opType := some .opModifyNamespace, namespaceInfo := some nsInfo }

def modifyNamespaceByJson (jsonStr : Bytes) : Outcome :=
  submitUnread send <| (loadProto lib.jsonToNamespace jsonStr).map fun info =>
    { opType := some .opModifyNamespace, namespaceInfo := some info }

def modifyNamespaceByFile (path : Bytes) : Outcome :=
  submitUnread send <| (loadProtoFromFile lib lib.jsonToNamespace path).map fun info =>
    { opType := some .opModifyNamespace, namespaceInfo := some info }

def createZoneInfo (zoneInfo : ZoneInfo) : Outcome :=
  submitUnread send <| .ok { opType := some .opCreateZone, zoneInfo := some zoneInfo }

def createZone (ns zone : Bytes) (quota : Int) : Outcome :=
  createZoneInfo send {
    namespaceName := ns
    zone := zone
    quota := if quota ≠ 0 then some quota else none }

def createZoneByJson (jsonStr : Bytes) : Outcome :=
  submitUnread send <| (loadProto lib.jsonToZone jsonStr).map fun info =>
    { opType := some .opCreateZone, zoneInfo := some info }

def createZoneByFile (path : Bytes) : Outcome :=
  submitUnread send <| (loadProtoFromFile lib lib.jsonToZone path).map fun info =>
    { opType := some .opCreateZone, zoneInfo := some info }

def removeZone (ns zone : Bytes) : Outcome :=
  submitUnread send <|
    .ok { opType := some .opDropZone, zoneInfo := some { namespaceName := ns, zone := zone } }

def modifyZone (zoneInfo : ZoneInfo) : Outcome :=
  submitUnread send <| .ok { opType := some .opModifyZone, zoneInfo := some zoneInfo }

def modifyZoneByJson (jsonStr : Bytes) : Outcome :=
  submitUnread send <| (loadProto lib.jsonToZone jsonStr).map fun info =>
    { opType := some .opModifyZone, zoneInfo := some info }

def modifyZoneByFile (path : Bytes) : Outcome :=
  submitUnread send <| (loadProtoFromFile lib lib.jsonToZone path).map fun info =>
    { opType := some .opModifyZone, zoneInfo := some info }

def createServletInfo (servletInfo : ServletInfo) : Outcome :=
  submitUnread send <| .ok { opType := some .opCreateServlet, servletInfo := some servletInfo }

def createServlet (ns zone servlet : Bytes) : Outcome :=
  createServletInfo send { namespaceName := ns, zone := zone, servletName := servlet }

def createServletByJson (jsonStr : Bytes) : Outcome :=
  match loadProto lib.jsonToServlet jsonStr with
  | .error err => ⟨none, .error err⟩
  | .ok servletPb => createServletInfo send servletPb

def createServletByFile (path : Bytes) : Outcome :=
  match loadProtoFromFile lib lib.jsonToServlet path with
  | .error err => ⟨none, .error err⟩
  | .ok servletPb => createServletInfo send servletPb

def removeServlet (ns zone servlet : Bytes) : Outcome :=
  submitUnread send <| .ok {
    opType := some .opDropServlet
    servletInfo := some { namespaceName := ns, zone := zone, servletName := servlet } }

/-- The op type is the one of `create_servlet`. -/
def modifyServlet (servletInfo : ServletInfo) : Outcome :=
  submitUnread send <| .ok { opType := some .opCreateServlet, servletInfo := some servletInfo }

def modifyServletByJson (jsonStr : Bytes) : Outcome :=
  match loadProto lib.jsonToServlet jsonStr with
  | .error err => ⟨none, .error err⟩
  | .ok servletPb => modifyServlet send servletPb

def modifyServletByFile (path : Bytes) : Outcome :=
  match loadProtoFromFile lib lib.jsonToServlet path with
  | .error err => ⟨none, .error err⟩
  | .ok servletPb => modifyServlet send servletPb

end DiscoveryClient

/-- The calls of the mutating methods, with their arguments. -/
inductive ClientCall where
  | createConfig (configName content version configType : Bytes)
  | createConfigInfo (info : ConfigInfo)
  | createConfigByFile (configName path configType version : Bytes)
  | createConfigByJson (jsonPath : Bytes)
  | removeConfig (configName version : Bytes)
  | removeConfigModule (configName : Bytes) (version : ModuleVersion)
  | removeConfigAllVersion (configName : Bytes)
  | createNamespaceInfo (info : NameSpaceInfo)
  | createNamespace (ns : Bytes) (quota : Int)
  | createNamespaceByJson (jsonStr : Bytes)
  | createNamespaceByFile (path : Bytes)
  | removeNamespace (ns : Bytes)
  | modifyNamespace (nsInfo : NameSpaceInfo)
  | modifyNamespaceByJson (jsonStr : Bytes)
  | modifyNamespaceByFile (path : Bytes)
  | createZoneInfo (zoneInfo : ZoneInfo)
  | createZone (ns zone : Bytes) (quota : Int)
  | createZoneByJson (jsonStr : Bytes)
  | createZoneByFile (path : Bytes)
  | removeZone (ns zone : Bytes)
  | modifyZone (zoneInfo : ZoneInfo)
  | modifyZoneByJson (jsonStr : Bytes)
  | modifyZoneByFile (path : Bytes)
  | createServletInfo (servletInfo : ServletInfo)
  | createServlet (ns zone servlet : Bytes)
  | createServletByJson (jsonStr : Bytes)
  | createServletByFile (path : Bytes)
  | removeServlet (ns zone servlet : Bytes)
  | modifyServlet (servletInfo : ServletInfo)
  | modifyServletByJson (jsonStr : Bytes)
  | modifyServletByFile (path : Bytes)

def ClientCall.run (lib : ClientLib) (send : ManagerSender) : ClientCall → Outcome
  | .createConfig name content version type =>
    DiscoveryClient.createConfig lib send name content version type
  | .createConfigInfo info => DiscoveryClient.createConfigInfo send info
  | .createConfigByFile name path type version =>
    DiscoveryClient.createConfigByFile lib send name path type version
  | .createConfigByJson path => DiscoveryClient.createConfigByJson lib send path
  | .removeConfig name version => DiscoveryClient.removeConfig lib send name version
  | .removeConfigModule name version => DiscoveryClient.removeConfigModule send name version
  | .removeConfigAllVersion name => DiscoveryClient.removeConfigAllVersion send name
  | .createNamespaceInfo info => DiscoveryClient.createNamespaceInfo send info
  | .createNamespace ns quota => DiscoveryClient.createNamespace send ns quota
  | .createNamespaceByJson json => DiscoveryClient.createNamespaceByJson lib send json
  | .createNamespaceByFile path => DiscoveryClient.createNamespaceByFile lib send path
  | .removeNamespace ns => DiscoveryClient.removeNamespace send ns
  | .modifyNamespace info => DiscoveryClient.modifyNamespace send info
  | .modifyNamespaceByJson json => DiscoveryClient.modifyNamespaceByJson lib send json
  | .modifyNamespaceByFile path => DiscoveryClient.modifyNamespaceByFile lib send path
  | .createZoneInfo info => DiscoveryClient.createZoneInfo send info
  | .createZone ns zone quota => DiscoveryClient.createZone send ns zone quota
  | .createZoneByJson json => DiscoveryClient.createZoneByJson lib send json
  | .createZoneByFile path => DiscoveryClient.createZoneByFile lib send path
  | .removeZone ns zone => DiscoveryClient.removeZone send ns zone
  | .modifyZone info => DiscoveryClient.modifyZone send info
  | .modifyZoneByJson json => DiscoveryClient.modifyZoneByJson lib send json
  | .modifyZoneByFile path => DiscoveryClient.modifyZoneByFile lib send path
  | .createServletInfo info => DiscoveryClient.createServletInfo send info
  | .createServlet ns zone servlet => DiscoveryClient.createServlet send ns zone servlet
  | .createServletByJson json => DiscoveryClient.createServletByJson lib send json
  | .createServletByFile path => DiscoveryClient.createServletByFile lib send path
  | .removeServlet ns zone servlet => DiscoveryClient.removeServlet send ns zone servlet
  | .modifyServlet info => DiscoveryClient.modifyServlet send info
  | .modifyServletByJson json => DiscoveryClient.modifyServletByJson lib send json
  | .modifyServletByFile path => DiscoveryClient.modifyServletByFile lib send path

end EA
