import EA.SchemaManagers

namespace EA

open ByteString

def schemaPlan (request : DiscoveryManagerRequest) (s : Schema) : Option (Plan Schema) :=
  match request.opType with
  | .opCreateNamespace => some (createNamespace request s)
  | .opDropNamespace => some (dropNamespace request s)
  | .opModifyNamespace => some (modifyNamespace request s)
  | .opCreateZone => some (createZone request s)
  | .opDropZone => some (dropZone request s)
  | .opModifyZone => some (modifyZone request s)
  | .opCreateServlet => some (createServlet request s)
  | .opDropServlet => some (dropServlet request s)
  | .opModifyServlet => some (modifyServlet request s)
  | _ => none

namespace NamespaceManager

def touchZoneIds (m : NamespaceManager) (id : Nat) : NamespaceManager :=
  { m with zoneIds := Table.touch m.zoneIds id }

def touchInfo (m : NamespaceManager) (id : Nat) : NamespaceManager :=
  { m with infoMap := Table.touch m.infoMap id }

theorem touchInfo_of_lookup {m : NamespaceManager} {id : Nat} {info : NameSpaceInfo}
    (h : m.infoMap[id]? = some info) : m.touchInfo id = m := by
  rw [touchInfo, Table.touch_of_lookup h]

theorem lookup_of_getNamespaceId {m : NamespaceManager} {name : Bytes}
    (h : m.getNamespaceId name ≠ 0) : m.idMap[name]? = some (m.getNamespaceId name) :=
  Table.lookup_of_getD_ne h

theorem getNamespaceId_of_lookup {m : NamespaceManager} {name : Bytes} {id : Nat}
    (h : m.idMap[name]? = some id) : m.getNamespaceId name = id := by
  rw [getNamespaceId, h]
  rfl

theorem eraseNamespaceInfo_of_lookup {m : NamespaceManager} {name : Bytes} {id : Nat}
    (h : m.idMap[name]? = some id) :
    m.eraseNamespaceInfo name =
      { m with
        idMap := m.idMap.erase name
        infoMap := m.infoMap.erase id
        zoneIds := m.zoneIds.erase id } := by
  rw [eraseNamespaceInfo, Table.getD_eq, h]
  rfl

end NamespaceManager

namespace ZoneManager

def touchServletIds (m : ZoneManager) (id : Nat) : ZoneManager :=
  { m with servletIds := Table.touch m.servletIds id }

def touchInfo (m : ZoneManager) (id : Nat) : ZoneManager :=
  { m with infoMap := Table.touch m.infoMap id }

theorem touchInfo_of_lookup {m : ZoneManager} {id : Nat} {info : ZoneInfo}
    (h : m.infoMap[id]? = some info) : m.touchInfo id = m := by
  rw [touchInfo, Table.touch_of_lookup h]

theorem lookup_of_getZoneId {m : ZoneManager} {name : Bytes} (h : m.getZoneId name ≠ 0) :
    m.idMap[name]? = some (m.getZoneId name) :=
  Table.lookup_of_getD_ne h

theorem getZoneId_of_lookup {m : ZoneManager} {name : Bytes} {id : Nat}
    (h : m.idMap[name]? = some id) : m.getZoneId name = id := by
  rw [getZoneId, h]
  rfl

theorem eraseZoneInfo_of_lookup {m : ZoneManager} {name : Bytes} {id : Nat}
    (h : m.idMap[name]? = some id) :
    m.eraseZoneInfo name =
      { m with
        idMap := m.idMap.erase name
        infoMap := m.infoMap.erase id
        servletIds := m.servletIds.erase id } := by
  rw [eraseZoneInfo, Table.getD_eq, h]
  rfl

end ZoneManager

namespace ServletManager

def touchId (m : ServletManager) (name : Bytes) : ServletManager :=
  { m with idMap := Table.touch m.idMap name }

def touchInfo (m : ServletManager) (id : Nat) : ServletManager :=
  { m with infoMap := Table.touch m.infoMap id }

theorem touchInfo_of_lookup {m : ServletManager} {id : Nat} {info : ServletInfo}
    (h : m.infoMap[id]? = some info) : m.touchInfo id = m := by
  rw [touchInfo, Table.touch_of_lookup h]

end ServletManager

def DiscoveryManagerRequest.zoneKey (request : DiscoveryManagerRequest) : Bytes :=
  makeZoneKey request.zoneInfo.namespaceName request.zoneInfo.zone

def ServletInfo.zoneKey (info : ServletInfo) : Bytes := makeZoneKey info.namespaceName info.zone

def ServletInfo.servletKey (info : ServletInfo) : Bytes :=
  makeServletKey info.zoneKey info.servletName

/-- Everything that a request can make of the three schema managers. An info that
is written is described by its names and numbers. -/
inductive SchemaStep (request : DiscoveryManagerRequest) (s : Schema) : Plan Schema → Prop
  | refused (errmsg : String) : SchemaStep request s (.refuse .inputParamError errmsg s)
  | createNamespace (info : NameSpaceInfo)
      (named : info.namespaceName = request.namespaceInfo.namespaceName)
      (absent : s.namespaces.idMap[info.namespaceName]? = none)
      (number : info.namespaceId = s.namespaces.maxNamespaceId + 1) :
      SchemaStep request s (.write (some (.namespaceInfo info))
        [(constructNamespaceKey info.namespaceId, some (.namespaceInfo info)),
          (constructMaxNamespaceIdKey, some (.raw (rawId info.namespaceId)))] "write db fail" s
        { s with namespaces :=
          { s.namespaces.setNamespaceInfo info with maxNamespaceId := info.namespaceId } })
  | namespaceHasZones (id : Nat)
      (found : s.namespaces.idMap[request.namespaceInfo.namespaceName]? = some id) :
      SchemaStep request s (.refuse .inputParamError "namespace has servlet"
        { s with namespaces := s.namespaces.touchZoneIds id })
  | dropNamespace (id : Nat)
      (found : s.namespaces.idMap[request.namespaceInfo.namespaceName]? = some id)
      (empty : ∀ z, ¬ s.namespaces.zoneIds.Has id z) :
      SchemaStep request s (.write none [(constructNamespaceKey id, none)] "write db fail"
        { s with namespaces := s.namespaces.touchZoneIds id }
        { s with namespaces :=
          (s.namespaces.touchZoneIds id).eraseNamespaceInfo request.namespaceInfo.namespaceName })
  | modifyNamespace (id : Nat) (old info : NameSpaceInfo)
      (found : s.namespaces.idMap[request.namespaceInfo.namespaceName]? = some id)
      (read : s.namespaces.infoMap.getD id default = old)
      (sameName : info.namespaceName = old.namespaceName)
      (sameId : info.namespaceId = old.namespaceId) :
      SchemaStep request s (.write (some (.namespaceInfo info))
        [(constructNamespaceKey id, some (.namespaceInfo info))] "write db fail"
        { s with namespaces := s.namespaces.touchInfo id }
        { s with namespaces := (s.namespaces.touchInfo id).setNamespaceInfo info })
  | createZone (info : ZoneInfo)
      (named : info.namespaceName = request.zoneInfo.namespaceName ∧
        info.zone = request.zoneInfo.zone)
      (parent : s.namespaces.idMap[info.namespaceName]? = some info.namespaceId)
      (absent : s.zones.idMap[makeZoneKey info.namespaceName info.zone]? = none)
      (number : info.zoneId = s.zones.maxZoneId + 1) :
      SchemaStep request s (.write (some (.zoneInfo info))
        [(constructZoneKey info.zoneId, some (.zoneInfo info)),
          (constructMaxZoneIdKey, some (.raw (rawId info.zoneId)))] "write db fail" s
        { s with
          zones := { s.zones.setZoneInfo info with maxZoneId := info.zoneId }
          namespaces := s.namespaces.addZoneId info.namespaceId info.zoneId })
  | zoneHasServlets (id : Nat) (found : s.zones.idMap[request.zoneKey]? = some id) :
      SchemaStep request s (.refuse .inputParamError "zone has servlet"
        { s with zones := s.zones.touchServletIds id })
  | dropZone (namespaceId id : Nat)
      (parent : s.namespaces.idMap[request.zoneInfo.namespaceName]? = some namespaceId)
      (found : s.zones.idMap[request.zoneKey]? = some id)
      (empty : ∀ v, ¬ s.zones.servletIds.Has id v) :
      SchemaStep request s (.write none [(constructZoneKey id, none)] "write db fail"
        { s with zones := s.zones.touchServletIds id }
        { s with
          zones := (s.zones.touchServletIds id).eraseZoneInfo request.zoneKey
          namespaces := s.namespaces.deleteZoneId namespaceId id })
  | modifyZone (id : Nat) (old info : ZoneInfo)
      (found : s.zones.idMap[request.zoneKey]? = some id)
      (read : s.zones.infoMap.getD id default = old)
      (sameNames : info.namespaceName = old.namespaceName ∧ info.zone = old.zone)
      (sameIds : info.zoneId = old.zoneId ∧ info.namespaceId = old.namespaceId) :
      SchemaStep request s (.write (some (.zoneInfo info))
        [(constructZoneKey id, some (.zoneInfo info))] "write db fail"
        { s with zones := s.zones.touchInfo id }
        { s with zones := (s.zones.touchInfo id).setZoneInfo info })
  | createServlet (info : ServletInfo)
      (op : request.opType = .opCreateServlet) (built : createdServlet request s = info)
      (named : info.namespaceName = request.servletInfo.namespaceName ∧
        info.zone = request.servletInfo.zone ∧ info.servletName = request.servletInfo.servletName)
      (parents : s.namespaces.idMap[request.servletInfo.namespaceName]? = some info.namespaceId ∧
        s.zones.idMap[info.zoneKey]? = some info.zoneId)
      (absent : s.servlets.idMap[info.servletKey]? = none)
      (number : info.servletId = s.servlets.maxServletId + 1) :
      SchemaStep request s (.write (some (.servletInfo info))
        [(constructServletKey info.servletId, some (.servletInfo info)),
          (constructMaxServletIdKey, some (.raw (rawId info.servletId)))] "write db fail" s
        { s with
          servlets := { s.servlets.setServletInfo info with maxServletId := info.servletId }
          zones := s.zones.addServletId info.namespaceId info.servletId })
  | dropServlet (zoneId other : Nat)
      (op : request.opType = .opDropServlet)
      (owner : s.namespaces.getNamespaceId request.servletInfo.namespaceName ≠ 0)
      (zone : s.zones.idMap[request.servletInfo.zoneKey]? = some zoneId)
      (found : s.servlets.idMap[request.servletInfo.zoneKey]? = some other) :
      SchemaStep request s (.write none [(constructServletKey zoneId, none)] "write db fail"
        { s with servlets := s.servlets.touchId request.servletInfo.servletKey }
        { s with
          servlets := (s.servlets.touchId request.servletInfo.servletKey).eraseServletInfo
            request.servletInfo.servletKey
          zones := s.zones.deleteServletId zoneId
            (s.servlets.idMap.getD request.servletInfo.servletKey 0) })
  | modifyServlet (zoneId id : Nat) (old info : ServletInfo)
      (op : request.opType = .opModifyServlet)
      (owner : s.namespaces.getNamespaceId request.servletInfo.namespaceName ≠ 0)
      (zone : s.zones.idMap[request.servletInfo.zoneKey]? = some zoneId)
      (found : s.servlets.idMap[request.servletInfo.servletKey]? = some id)
      (read : s.servlets.infoMap.getD zoneId default = old)
      (built : modifiedServlet request.servletInfo old = info)
      (sameNames : info.namespaceName = old.namespaceName ∧ info.zone = old.zone ∧
        info.servletName = old.servletName)
      (sameIds : info.servletId = old.servletId ∧ info.zoneId = old.zoneId) :
      SchemaStep request s (.write (some (.servletInfo info))
        [(constructServletKey id, some (.servletInfo info))] "write db fail"
        { s with servlets := s.servlets.touchInfo zoneId }
        { s with servlets := (s.servlets.touchInfo zoneId).setServletInfo info })

theorem inheritedZone_keeps (parent : Option NameSpaceInfo) (zone : ZoneInfo) :
    (inheritedZone parent zone).namespaceName = zone.namespaceName ∧
      (inheritedZone parent zone).zone = zone.zone ∧
      (inheritedZone parent zone).zoneId = zone.zoneId ∧
      (inheritedZone parent zone).namespaceId = zone.namespaceId := by
  cases parent <;> exact ⟨rfl, rfl, rfl, rfl⟩

theorem inheritedServlet_keeps (parent : Option NameSpaceInfo) (servlet : ServletInfo) :
    (inheritedServlet parent servlet).namespaceName = servlet.namespaceName ∧
      (inheritedServlet parent servlet).zone = servlet.zone ∧
      (inheritedServlet parent servlet).servletName = servlet.servletName ∧
      (inheritedServlet parent servlet).servletId = servlet.servletId ∧
      (inheritedServlet parent servlet).zoneId = servlet.zoneId ∧
      (inheritedServlet parent servlet).namespaceId = servlet.namespaceId := by
  cases parent <;> exact ⟨rfl, rfl, rfl, rfl, rfl, rfl⟩

theorem createNamespace_step (request : DiscoveryManagerRequest) (s : Schema) :
    SchemaStep request s (createNamespace request s) := by
  unfold createNamespace
  dsimp only
  split
  next => exact .refused _
  next absent =>
    let info : NameSpaceInfo := { request.namespaceInfo with
      namespaceId := s.namespaces.maxNamespaceId + 1, version := 1 }
    have step : SchemaStep request s _ := .createNamespace info rfl absent rfl
    exact step

theorem dropNamespace_step (request : DiscoveryManagerRequest) (s : Schema) :
    SchemaStep request s (dropNamespace request s) := by
  unfold dropNamespace
  dsimp only
  split
  next => exact .refused _
  next id found =>
    split
    next => exact .namespaceHasZones id found
    next none =>
      have empty : ∀ z, ¬ s.namespaces.zoneIds.Has id z :=
        Index.isEmpty_members.mp (by simpa using none)
      exact .dropNamespace id found empty

theorem modifyNamespace_step (request : DiscoveryManagerRequest) (s : Schema) :
    SchemaStep request s (modifyNamespace request s) := by
  unfold modifyNamespace
  dsimp only
  split
  next => exact .refused _
  next id found => exact .modifyNamespace id _ _ found rfl rfl rfl

theorem createZone_step (request : DiscoveryManagerRequest) (s : Schema) :
    SchemaStep request s (createZone request s) := by
  unfold createZone
  dsimp only
  split
  next => exact .refused _
  next parent =>
    split
    next => exact .refused _
    next absent =>
      let namespaceId := s.namespaces.getNamespaceId request.zoneInfo.namespaceName
      let asked : ZoneInfo := { request.zoneInfo with
        zoneId := s.zones.maxZoneId + 1, namespaceId := namespaceId }
      let info : ZoneInfo :=
        { inheritedZone s.namespaces.infoMap[namespaceId]? asked with version := 1 }
      obtain ⟨name, zone, id, owner⟩ := inheritedZone_keeps s.namespaces.infoMap[namespaceId]? asked
      have hname : info.namespaceName = request.zoneInfo.namespaceName := name
      have hzone : info.zone = request.zoneInfo.zone := zone
      have hid : info.zoneId = s.zones.maxZoneId + 1 := id
      have howner : info.namespaceId = namespaceId := owner
      have step : SchemaStep request s _ := .createZone info ⟨hname, hzone⟩
        (by rw [hname, howner]; exact NamespaceManager.lookup_of_getNamespaceId parent)
        (by rw [hname, hzone]; exact absent) hid
      rw [hid, howner] at step
      exact step

theorem dropZone_step (request : DiscoveryManagerRequest) (s : Schema) :
    SchemaStep request s (dropZone request s) := by
  unfold dropZone
  dsimp only
  split
  next => exact .refused _
  next parent =>
    split
    next => exact .refused _
    next id found =>
      split
      next => exact .zoneHasServlets id found
      next none =>
        have empty : ∀ v, ¬ s.zones.servletIds.Has id v :=
          Index.isEmpty_members.mp (by simpa using none)
        exact .dropZone _ id (NamespaceManager.lookup_of_getNamespaceId parent) found empty

theorem modifyZone_step (request : DiscoveryManagerRequest) (s : Schema) :
    SchemaStep request s (modifyZone request s) := by
  unfold modifyZone
  dsimp only
  split
  next => exact .refused _
  next =>
    split
    next => exact .refused _
    next id found => exact .modifyZone id _ _ found rfl ⟨rfl, rfl⟩ ⟨rfl, rfl⟩

theorem createServlet_step {request : DiscoveryManagerRequest} (s : Schema)
    (op : request.opType = .opCreateServlet) :
    SchemaStep request s (createServlet request s) := by
  unfold createServlet
  dsimp only
  split
  next => exact .refused _
  next owner =>
    split
    next => exact .refused _
    next zone =>
      split
      next => exact .refused _
      next absent =>
        let namespaceId := s.namespaces.getNamespaceId request.servletInfo.namespaceName
        let zoneId := s.zones.getZoneId request.servletInfo.zoneKey
        let asked : ServletInfo := { request.servletInfo with
          servletId := s.servlets.maxServletId + 1, zoneId := zoneId, namespaceId := namespaceId }
        let info : ServletInfo := createdServlet request s
        obtain ⟨space, place, name, id, parent, lies⟩ :=
          inheritedServlet_keeps s.namespaces.infoMap[namespaceId]? asked
        have hspace : info.namespaceName = request.servletInfo.namespaceName := space
        have hplace : info.zone = request.servletInfo.zone := place
        have hname : info.servletName = request.servletInfo.servletName := name
        have hid : info.servletId = s.servlets.maxServletId + 1 := id
        have hparent : info.zoneId = zoneId := parent
        have howner : info.namespaceId = namespaceId := lies
        have hkey : info.zoneKey = request.servletInfo.zoneKey := by
          rw [ServletInfo.zoneKey, hspace, hplace, ServletInfo.zoneKey]
        have step : SchemaStep request s _ := .createServlet info op rfl ⟨hspace, hplace, hname⟩
          ⟨by rw [howner]; exact NamespaceManager.lookup_of_getNamespaceId owner,
            by rw [hkey, hparent]; exact ZoneManager.lookup_of_getZoneId zone⟩
          (by rw [ServletInfo.servletKey, hkey, hname]; exact absent) hid
        rw [hid, howner] at step
        exact step

theorem dropServlet_step {request : DiscoveryManagerRequest} (s : Schema)
    (op : request.opType = .opDropServlet) :
    SchemaStep request s (dropServlet request s) := by
  unfold dropServlet
  dsimp only
  split
  next => exact .refused _
  next owner =>
    split
    next => exact .refused _
    next zone =>
      split
      next => exact .refused _
      next other found =>
        exact .dropServlet _ other op owner (ZoneManager.lookup_of_getZoneId zone) found

theorem modifyServlet_step {request : DiscoveryManagerRequest} (s : Schema)
    (op : request.opType = .opModifyServlet) :
    SchemaStep request s (modifyServlet request s) := by
  unfold modifyServlet
  dsimp only
  split
  next => exact .refused _
  next owner =>
    split
    next => exact .refused _
    next zone =>
      split
      next => exact .refused _
      next id found =>
        exact .modifyServlet _ id _ _ op owner (ZoneManager.lookup_of_getZoneId zone) found rfl
          rfl ⟨rfl, rfl, rfl⟩ ⟨rfl, rfl⟩

theorem schemaPlan_step {request : DiscoveryManagerRequest} {s : Schema} {p : Plan Schema}
    (h : schemaPlan request s = some p) : SchemaStep request s p := by
  unfold schemaPlan at h
  split at h
  case h_1 => exact Option.some.inj h ▸ createNamespace_step request s
  case h_2 => exact Option.some.inj h ▸ dropNamespace_step request s
  case h_3 => exact Option.some.inj h ▸ modifyNamespace_step request s
  case h_4 => exact Option.some.inj h ▸ createZone_step request s
  case h_5 => exact Option.some.inj h ▸ dropZone_step request s
  case h_6 => exact Option.some.inj h ▸ modifyZone_step request s
  case h_7 op => exact Option.some.inj h ▸ createServlet_step s op
  case h_8 op => exact Option.some.inj h ▸ dropServlet_step s op
  case h_9 op => exact Option.some.inj h ▸ modifyServlet_step s op
  case h_10 => simp at h

/-- The records that the schema managers keep in the database. A servlet's info may
lie under a number that is not its own. -/
inductive SchemaRecord where
  | ofNamespace (id : Nat) (info : NameSpaceInfo)
  | ofZone (id : Nat) (info : ZoneInfo)
  | ofServlet (id : Nat) (info : ServletInfo)
  | maxNamespaceId (id : Nat)
  | maxZoneId (id : Nat)
  | maxServletId (id : Nat)

def SchemaRecord.entry : SchemaRecord → Bytes × MetaValue
  | .ofNamespace id info => (constructNamespaceKey id, .namespaceInfo info)
  | .ofZone id info => (constructZoneKey id, .zoneInfo info)
  | .ofServlet id info => (constructServletKey id, .servletInfo info)
  | .maxNamespaceId id => (constructMaxNamespaceIdKey, .raw (rawId id))
  | .maxZoneId id => (constructMaxZoneIdKey, .raw (rawId id))
  | .maxServletId id => (constructMaxServletIdKey, .raw (rawId id))

/-- A write that puts a record or deletes one. -/
def SchemaRecord.Writes (r : SchemaRecord) (op : BatchOp) : Prop :=
  op = (r.entry.1, some r.entry.2) ∨ op = (r.entry.1, none)

theorem SchemaRecord.schemaIdentify_isPrefixOf (r : SchemaRecord) :
    schemaIdentify.isPrefixOf r.entry.1 = true := by
  cases r <;> rfl

theorem SchemaStep.writes {request : DiscoveryManagerRequest} {s : Schema} {p : Plan Schema}
    (h : SchemaStep request s p) : ∀ op ∈ p.batch, ∃ r : SchemaRecord, r.Writes op := by
  cases h with
  | refused | namespaceHasZones | zoneHasServlets => simp [Plan.batch]
  | createNamespace info =>
    simp only [Plan.batch, List.forall_mem_cons]
    exact ⟨⟨.ofNamespace _ info, Or.inl rfl⟩, ⟨.maxNamespaceId _, Or.inl rfl⟩, by simp⟩
  | dropNamespace id =>
    simp only [Plan.batch, List.forall_mem_cons]
    exact ⟨⟨.ofNamespace id default, Or.inr rfl⟩, by simp⟩
  | modifyNamespace id old info =>
    simp only [Plan.batch, List.forall_mem_cons]
    exact ⟨⟨.ofNamespace id info, Or.inl rfl⟩, by simp⟩
  | createZone info =>
    simp only [Plan.batch, List.forall_mem_cons]
    exact ⟨⟨.ofZone _ info, Or.inl rfl⟩, ⟨.maxZoneId _, Or.inl rfl⟩, by simp⟩
  | dropZone _ id =>
    simp only [Plan.batch, List.forall_mem_cons]
    exact ⟨⟨.ofZone id default, Or.inr rfl⟩, by simp⟩
  | modifyZone id old info =>
    simp only [Plan.batch, List.forall_mem_cons]
    exact ⟨⟨.ofZone id info, Or.inl rfl⟩, by simp⟩
  | createServlet info =>
    simp only [Plan.batch, List.forall_mem_cons]
    exact ⟨⟨.ofServlet _ info, Or.inl rfl⟩, ⟨.maxServletId _, Or.inl rfl⟩, by simp⟩
  | dropServlet zoneId =>
    simp only [Plan.batch, List.forall_mem_cons]
    exact ⟨⟨.ofServlet zoneId default, Or.inr rfl⟩, by simp⟩
  | modifyServlet _ id old info =>
    simp only [Plan.batch, List.forall_mem_cons]
    exact ⟨⟨.ofServlet id info, Or.inl rfl⟩, by simp⟩

end EA
