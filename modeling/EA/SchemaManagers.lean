import EA.Lib.Index
import EA.MetaDb

namespace EA

open ByteString

structure NamespaceManager where
  maxNamespaceId : Nat := 0
  idMap : Table Bytes Nat := ∅
  infoMap : Table Nat NameSpaceInfo := ∅
  zoneIds : Index Nat Nat := ∅

structure ZoneManager where
  maxZoneId : Nat := 0
  /-- Keyed by `makeZoneKey`. -/
  idMap : Table Bytes Nat := ∅
  infoMap : Table Nat ZoneInfo := ∅
  servletIds : Index Nat Nat := ∅

structure ServletManager where
  maxServletId : Nat := 0
  /-- Keyed by `makeServletKey`. -/
  idMap : Table Bytes Nat := ∅
  infoMap : Table Nat ServletInfo := ∅

structure Schema where
  namespaces : NamespaceManager := {}
  zones : ZoneManager := {}
  servlets : ServletManager := {}

namespace NamespaceManager

def setNamespaceInfo (m : NamespaceManager) (info : NameSpaceInfo) : NamespaceManager :=
  { m with
    idMap := m.idMap.insert info.namespaceName info.namespaceId
    infoMap := m.infoMap.insert info.namespaceId info }

def eraseNamespaceInfo (m : NamespaceManager) (namespaceName : Bytes) : NamespaceManager :=
  let namespaceId := m.idMap.getD namespaceName 0
  { m with
    idMap := m.idMap.erase namespaceName
    infoMap := m.infoMap.erase namespaceId
    zoneIds := m.zoneIds.erase namespaceId }

def addZoneId (m : NamespaceManager) (namespaceId zoneId : Nat) : NamespaceManager :=
  { m with zoneIds := m.zoneIds.add namespaceId zoneId }

def deleteZoneId (m : NamespaceManager) (namespaceId zoneId : Nat) : NamespaceManager :=
  { m with zoneIds := m.zoneIds.remove namespaceId zoneId }

def getNamespaceId (m : NamespaceManager) (namespaceName : Bytes) : Nat :=
  (m.idMap[namespaceName]?).getD 0

end NamespaceManager

namespace ZoneManager

def setZoneInfo (m : ZoneManager) (info : ZoneInfo) : ZoneManager :=
  { m with
    idMap := m.idMap.insert (makeZoneKey info.namespaceName info.zone) info.zoneId
    infoMap := m.infoMap.insert info.zoneId info }

def eraseZoneInfo (m : ZoneManager) (zoneName : Bytes) : ZoneManager :=
  let zoneId := m.idMap.getD zoneName 0
  { m with
    idMap := m.idMap.erase zoneName
    infoMap := m.infoMap.erase zoneId
    servletIds := m.servletIds.erase zoneId }

def addServletId (m : ZoneManager) (zoneId servletId : Nat) : ZoneManager :=
  { m with servletIds := m.servletIds.add zoneId servletId }

def deleteServletId (m : ZoneManager) (zoneId servletId : Nat) : ZoneManager :=
  { m with servletIds := m.servletIds.remove zoneId servletId }

def getZoneId (m : ZoneManager) (zoneName : Bytes) : Nat :=
  (m.idMap[zoneName]?).getD 0

end ZoneManager

namespace ServletManager

def setServletInfo (m : ServletManager) (info : ServletInfo) : ServletManager :=
  { m with
    idMap := m.idMap.insert
      (makeServletKey (makeZoneKey info.namespaceName info.zone) info.servletName) info.servletId
    infoMap := m.infoMap.insert info.servletId info }

def eraseServletInfo (m : ServletManager) (servletName : Bytes) : ServletManager :=
  let servletId := m.idMap.getD servletName 0
  { m with
    idMap := m.idMap.erase servletName
    infoMap := m.infoMap.erase servletId }

def getServletId (m : ServletManager) (servletName : Bytes) : Nat :=
  (m.idMap[servletName]?).getD 0

end ServletManager

def createNamespace (request : DiscoveryManagerRequest) (s : Schema) : Plan Schema :=
  let namespaceName := request.namespaceInfo.namespaceName
  match s.namespaces.idMap[namespaceName]? with
  | some _ => .refuse .inputParamError "namespace already existed" s
  | none =>
    let tmpNamespaceId := s.namespaces.maxNamespaceId + 1
    let namespaceInfo := { request.namespaceInfo with namespaceId := tmpNamespaceId, version := 1 }
    .write (some (.namespaceInfo namespaceInfo))
      [(constructNamespaceKey tmpNamespaceId, some (.namespaceInfo namespaceInfo)),
        (constructMaxNamespaceIdKey, some (.raw (rawId tmpNamespaceId)))]
      "write db fail" s
      { s with namespaces :=
        { s.namespaces.setNamespaceInfo namespaceInfo with maxNamespaceId := tmpNamespaceId } }

def dropNamespace (request : DiscoveryManagerRequest) (s : Schema) : Plan Schema :=
  let namespaceName := request.namespaceInfo.namespaceName
  match s.namespaces.idMap[namespaceName]? with
  | none => .refuse .inputParamError "namespace not exist" s
  | some namespaceId =>
    -- the test for zones reads `_zone_ids` through a subscript
    let touched := { s with namespaces :=
      { s.namespaces with zoneIds := Table.touch s.namespaces.zoneIds namespaceId } }
    if !(s.namespaces.zoneIds.members namespaceId).isEmpty then
      .refuse .inputParamError "namespace has servlet" touched
    else
      .write none [(constructNamespaceKey namespaceId, none)] "write db fail" touched
        { touched with namespaces := touched.namespaces.eraseNamespaceInfo namespaceName }

def modifiedNamespace (request info : NameSpaceInfo) : NameSpaceInfo :=
  { info with
    quota := request.quota <|> info.quota
    resourceTag := request.resourceTag <|> info.resourceTag
    byteSizePerRecord := request.byteSizePerRecord <|> info.byteSizePerRecord
    replicaNum := request.replicaNum <|> info.replicaNum
    regionSplitLines := request.regionSplitLines <|> info.regionSplitLines
    version := info.version + 1 }

def modifyNamespace (request : DiscoveryManagerRequest) (s : Schema) : Plan Schema :=
  let namespaceName := request.namespaceInfo.namespaceName
  match s.namespaces.idMap[namespaceName]? with
  | none => .refuse .inputParamError "namespace not exist" s
  | some namespaceId =>
    let tmpInfo := modifiedNamespace request.namespaceInfo
      (s.namespaces.infoMap.getD namespaceId default)
    let touched := { s with namespaces :=
      { s.namespaces with infoMap := Table.touch s.namespaces.infoMap namespaceId } }
    .write (some (.namespaceInfo tmpInfo))
      [(constructNamespaceKey namespaceId, some (.namespaceInfo tmpInfo))] "write db fail" touched
      { touched with namespaces := touched.namespaces.setNamespaceInfo tmpInfo }

/-- What a zone takes over from its namespace where the request is silent. -/
def inheritedZone (namespaceInfo : Option NameSpaceInfo) (zone : ZoneInfo) : ZoneInfo :=
  match namespaceInfo with
  | none => zone
  | some info =>
    { zone with
      resourceTag := zone.resourceTag <|>
        if info.resourceTag.getD [] ≠ [] then info.resourceTag else none
      byteSizePerRecord := zone.byteSizePerRecord <|> info.byteSizePerRecord
      replicaNum := zone.replicaNum <|> info.replicaNum
      regionSplitLines := zone.regionSplitLines <|> info.regionSplitLines }

def createZone (request : DiscoveryManagerRequest) (s : Schema) : Plan Schema :=
  let namespaceName := request.zoneInfo.namespaceName
  let zoneName := makeZoneKey namespaceName request.zoneInfo.zone
  let namespaceId := s.namespaces.getNamespaceId namespaceName
  if namespaceId = 0 then .refuse .inputParamError "namespace not exist" s
  else
    match s.zones.idMap[zoneName]? with
    | some _ => .refuse .inputParamError "zone already exist" s
    | none =>
      let tmpZoneId := s.zones.maxZoneId + 1
      let zoneInfo := { inheritedZone s.namespaces.infoMap[namespaceId]?
        { request.zoneInfo with zoneId := tmpZoneId, namespaceId := namespaceId } with
        version := 1 }
      .write (some (.zoneInfo zoneInfo))
        [(constructZoneKey tmpZoneId, some (.zoneInfo zoneInfo)),
          (constructMaxZoneIdKey, some (.raw (rawId tmpZoneId)))]
        "write db fail" s
        { s with
          zones := { s.zones.setZoneInfo zoneInfo with maxZoneId := tmpZoneId }
          namespaces := s.namespaces.addZoneId namespaceId tmpZoneId }

def dropZone (request : DiscoveryManagerRequest) (s : Schema) : Plan Schema :=
  let namespaceName := request.zoneInfo.namespaceName
  let zoneName := makeZoneKey namespaceName request.zoneInfo.zone
  let namespaceId := s.namespaces.getNamespaceId namespaceName
  if namespaceId = 0 then .refuse .inputParamError "namespace not exist" s
  else
    match s.zones.idMap[zoneName]? with
    | none => .refuse .inputParamError "zone not exist" s
    | some zoneId =>
      let touched := { s with zones :=
        { s.zones with servletIds := Table.touch s.zones.servletIds zoneId } }
      if !(s.zones.servletIds.members zoneId).isEmpty then
        .refuse .inputParamError "zone has servlet" touched
      else
        .write none [(constructZoneKey zoneId, none)] "write db fail" touched
          { touched with
            zones := touched.zones.eraseZoneInfo zoneName
            namespaces := touched.namespaces.deleteZoneId namespaceId zoneId }

def modifiedZone (request info : ZoneInfo) : ZoneInfo :=
  { info with
    version := info.version + 1
    quota := request.quota <|> info.quota
    resourceTag := request.resourceTag <|> info.resourceTag
    byteSizePerRecord := request.byteSizePerRecord <|> info.byteSizePerRecord
    replicaNum := request.replicaNum <|> info.replicaNum
    regionSplitLines := request.regionSplitLines <|> info.regionSplitLines }

def modifyZone (request : DiscoveryManagerRequest) (s : Schema) : Plan Schema :=
  let namespaceName := request.zoneInfo.namespaceName
  let zoneName := makeZoneKey namespaceName request.zoneInfo.zone
  let namespaceId := s.namespaces.getNamespaceId namespaceName
  if namespaceId = 0 then .refuse .inputParamError "namespace not exist" s
  else
    match s.zones.idMap[zoneName]? with
    | none => .refuse .inputParamError "zone not exist" s
    | some zoneId =>
      let tmpZoneInfo := modifiedZone request.zoneInfo (s.zones.infoMap.getD zoneId default)
      let touched := { s with zones :=
        { s.zones with infoMap := Table.touch s.zones.infoMap zoneId } }
      .write (some (.zoneInfo tmpZoneInfo))
        [(constructZoneKey zoneId, some (.zoneInfo tmpZoneInfo))] "write db fail" touched
        { touched with zones := touched.zones.setZoneInfo tmpZoneInfo }

def inheritedServlet (namespaceInfo : Option NameSpaceInfo) (servlet : ServletInfo) :
    ServletInfo :=
  match namespaceInfo with
  | none => servlet
  | some info =>
    { servlet with
      resourceTag := servlet.resourceTag <|>
        if info.resourceTag.getD [] ≠ [] then info.resourceTag else none }

/-- The servlet that `create_servlet` stores. -/
def createdServlet (request : DiscoveryManagerRequest) (s : Schema) : ServletInfo :=
  let namespaceName := request.servletInfo.namespaceName
  let namespaceId := s.namespaces.getNamespaceId namespaceName
  let zoneId := s.zones.getZoneId (makeZoneKey namespaceName request.servletInfo.zone)
  { inheritedServlet s.namespaces.infoMap[namespaceId]?
    { request.servletInfo with
      servletId := s.servlets.maxServletId + 1, zoneId := zoneId, namespaceId := namespaceId } with
    version := 1 }

def createServlet (request : DiscoveryManagerRequest) (s : Schema) : Plan Schema :=
  let namespaceName := request.servletInfo.namespaceName
  let zoneName := makeZoneKey namespaceName request.servletInfo.zone
  let servletName := makeServletKey zoneName request.servletInfo.servletName
  let namespaceId := s.namespaces.getNamespaceId namespaceName
  if namespaceId = 0 then .refuse .inputParamError "namespace not exist" s
  else
    let zoneId := s.zones.getZoneId zoneName
    if zoneId = 0 then .refuse .inputParamError "zone not exist" s
    else
      match s.servlets.idMap[servletName]? with
      | some _ => .refuse .inputParamError "servlet already exist" s
      | none =>
        let tmpServletId := s.servlets.maxServletId + 1
        let servletInfo := createdServlet request s
        .write (some (.servletInfo servletInfo))
          [(constructServletKey tmpServletId, some (.servletInfo servletInfo)),
            (constructMaxServletIdKey, some (.raw (rawId tmpServletId)))]
          "write db fail" s
          { s with
            servlets := { s.servlets.setServletInfo servletInfo with maxServletId := tmpServletId }
            -- the parent is passed as `namespace_id`, not `zone_id`
            zones := s.zones.addServletId namespaceId tmpServletId }

def dropServlet (request : DiscoveryManagerRequest) (s : Schema) : Plan Schema :=
  let namespaceName := request.servletInfo.namespaceName
  let zoneName := makeZoneKey namespaceName request.servletInfo.zone
  let servletName := makeServletKey zoneName request.servletInfo.servletName
  let namespaceId := s.namespaces.getNamespaceId namespaceName
  if namespaceId = 0 then .refuse .inputParamError "namespace not exist" s
  else
    let zoneId := s.zones.getZoneId zoneName
    if zoneId = 0 then .refuse .inputParamError "namespace not exist" s
    else
      -- the existence test looks the zone's name up among the servlets
      match s.servlets.idMap[zoneName]? with
      | none => .refuse .inputParamError "zone not exist" s
      | some _ =>
        let servletId := s.servlets.idMap.getD servletName 0
        let touched := { s with servlets :=
          { s.servlets with idMap := Table.touch s.servlets.idMap servletName } }
        .write none [(constructServletKey zoneId, none)] "write db fail" touched
          { touched with
            servlets := touched.servlets.eraseServletInfo servletName
            zones := touched.zones.deleteServletId zoneId servletId }

def modifiedServlet (request info : ServletInfo) : ServletInfo :=
  { info with
    version := info.version + 1
    resourceTag := request.resourceTag <|> info.resourceTag }

def modifyServlet (request : DiscoveryManagerRequest) (s : Schema) : Plan Schema :=
  let namespaceName := request.servletInfo.namespaceName
  let zoneName := makeZoneKey namespaceName request.servletInfo.zone
  let servletName := makeServletKey zoneName request.servletInfo.servletName
  let namespaceId := s.namespaces.getNamespaceId namespaceName
  if namespaceId = 0 then .refuse .inputParamError "namespace not exist" s
  else
    let zoneId := s.zones.getZoneId zoneName
    if zoneId = 0 then .refuse .inputParamError "namespace not exist" s
    else
      match s.servlets.idMap[servletName]? with
      | none => .refuse .inputParamError "zone not exist" s
      | some servletId =>
        -- the info is fetched with the zone's id and written under the servlet's
        let tmpServletInfo := modifiedServlet request.servletInfo
          (s.servlets.infoMap.getD zoneId default)
        let touched := { s with servlets :=
          { s.servlets with infoMap := Table.touch s.servlets.infoMap zoneId } }
        .write (some (.servletInfo tmpServletInfo))
          [(constructServletKey servletId, some (.servletInfo tmpServletInfo))]
          "write db fail" touched
          { touched with servlets := touched.servlets.setServletInfo tmpServletInfo }

end EA
