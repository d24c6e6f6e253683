import EA.SchemaManagers

namespace EA

structure InstanceManager where
  instanceInfo : Table Bytes ServletInstance := ∅
  /-- When an address was removed, on the local clock. -/
  removedInstance : Table Bytes Int := ∅
  namespaceInstance : Index Bytes Bytes := ∅
  /-- Keyed by `makeZoneKey`. -/
  zoneInstance : Index Bytes Bytes := ∅
  /-- Keyed by `makeServletKey`. -/
  servletInstance : Index Bytes Bytes := ∅

def ServletInstance.zoneKey (info : ServletInstance) : Bytes :=
  makeZoneKey info.namespaceName info.zoneName

def ServletInstance.servletKey (info : ServletInstance) : Bytes :=
  makeServletKey info.zoneKey info.servletName

namespace InstanceManager

def setInstanceInfo (m : InstanceManager) (info : ServletInstance) : InstanceManager where
  instanceInfo := m.instanceInfo.insert info.address info
  removedInstance := m.removedInstance.erase info.address
  namespaceInstance := m.namespaceInstance.add info.namespaceName info.address
  zoneInstance := m.zoneInstance.add info.zoneKey info.address
  servletInstance := m.servletInstance.add info.servletKey info.address

/-- Whole sets are erased, not the address from them. -/
def removeInstanceInfo (m : InstanceManager) (now : Int) (address : Bytes) : InstanceManager :=
  let info := m.instanceInfo.getD address default
  { instanceInfo := m.instanceInfo.erase address
    removedInstance := m.removedInstance.insert address now
    namespaceInstance := m.namespaceInstance.erase info.namespaceName
    zoneInstance := m.zoneInstance.erase info.zoneKey
    servletInstance := m.servletInstance.erase info.servletKey }

/-- `TimeCost::get_time_s` of a removal, on a microsecond clock. -/
def secondsSince (start now : Int) : Int := (now - start).tdiv 1000000

def removedInOneHour (m : InstanceManager) (now : Int) (address : Bytes) : Bool :=
  (m.removedInstance[address]?).any fun start => secondsSince start now < 3600

end InstanceManager

/-- `SchemaManager::check_and_get_for_instance`. -/
def checkAndGetForInstance (s : Schema) (info : ServletInstance) : Option ServletInstance :=
  let namespaceId := s.namespaces.getNamespaceId info.namespaceName
  if namespaceId = 0 then none
  else
    let zoneId := s.zones.getZoneId info.zoneKey
    if zoneId = 0 then none
    else
      let servletId := s.servlets.getServletId info.servletKey
      if servletId = 0 then none
      else some { info with namespaceId := namespaceId, zoneId := zoneId, servletId := servletId }

def addInstance (request : DiscoveryManagerRequest) (now : Int) (s : Schema)
    (m : InstanceManager) : Plan InstanceManager :=
  let address := request.instanceInfo.address
  match checkAndGetForInstance s request.instanceInfo with
  | none => .refuse .inputParamError "request invalid" m
  | some checked =>
    match m.instanceInfo[address]? with
    | some _ => .refuse .inputParamError "instance already existed" m
    | none =>
      if m.removedInOneHour now address then .refuse .inputParamError "removed in 1 hour" m
      else
        let instanceInfo := { checked with version := 1 }
        .write (some (.instanceInfo instanceInfo))
          [(constructInstanceKey address, some (.instanceInfo instanceInfo))] "write db fail" m
          (m.setInstanceInfo instanceInfo)

def dropInstance (request : DiscoveryManagerRequest) (now : Int) (m : InstanceManager) :
    Plan InstanceManager :=
  let address := request.instanceInfo.address
  match m.instanceInfo[address]? with
  | none => .refuse .inputParamError "address not exist" m
  | some _ =>
    .write none [(constructInstanceKey address, none)] "write db fail" m
      (m.removeInstanceInfo now address)

def updatedInstance (request info : ServletInstance) : ServletInstance :=
  { info with
    status := request.status <|> info.status
    color := request.color <|> info.color
    env := request.env <|> info.env
    weight := request.weight <|> info.weight
    version := info.version + 1 }

def updateInstance (request : DiscoveryManagerRequest) (m : InstanceManager) :
    Plan InstanceManager :=
  let address := request.instanceInfo.address
  match m.instanceInfo[address]? with
  | none => .refuse .inputParamError "address not exist" m
  | some info =>
    let tmpInstancePb := updatedInstance request.instanceInfo info
    .write (some (.instanceInfo tmpInstancePb))
      [(constructInstanceKey address, some (.instanceInfo tmpInstancePb))] "write db fail" m
      (m.setInstanceInfo tmpInstancePb)

def instancesPlan (request : DiscoveryManagerRequest) (now : Int) (s : Schema)
    (m : InstanceManager) : Option (Plan InstanceManager) :=
  match request.opType with
  | .opAddInstance => some (addInstance request now s m)
  | .opDropInstance => some (dropInstance request now m)
  | .opUpdateInstance => some (updateInstance request m)
  | _ => none

/-- Two infos of one instance: its address and the names it is registered under. -/
def ServletInstance.SamePlace (a b : ServletInstance) : Prop :=
  a.address = b.address ∧ a.namespaceName = b.namespaceName ∧ a.zoneName = b.zoneName ∧
    a.servletName = b.servletName

/-- Everything that a request can make of the instances. -/
inductive InstanceStep (request : DiscoveryManagerRequest) (now : Int) (m : InstanceManager) :
    Plan InstanceManager → Prop
  | refused (errmsg : String) : InstanceStep request now m (.refuse .inputParamError errmsg m)
  | added (info : ServletInstance) (op : request.opType = .opAddInstance)
      (place : info.SamePlace request.instanceInfo)
      (absent : m.instanceInfo[request.instanceInfo.address]? = none) :
      InstanceStep request now m (.write (some (.instanceInfo info))
        [(constructInstanceKey request.instanceInfo.address, some (.instanceInfo info))]
        "write db fail" m (m.setInstanceInfo info))
  | dropped (info : ServletInstance) (op : request.opType = .opDropInstance)
      (found : m.instanceInfo[request.instanceInfo.address]? = some info) :
      InstanceStep request now m (.write none
        [(constructInstanceKey request.instanceInfo.address, none)] "write db fail" m
        (m.removeInstanceInfo now request.instanceInfo.address))
  | updated (old info : ServletInstance) (op : request.opType = .opUpdateInstance)
      (found : m.instanceInfo[request.instanceInfo.address]? = some old)
      (place : info.SamePlace old) :
      InstanceStep request now m (.write (some (.instanceInfo info))
        [(constructInstanceKey request.instanceInfo.address, some (.instanceInfo info))]
        "write db fail" m (m.setInstanceInfo info))

theorem checkAndGetForInstance_samePlace {s : Schema} {info checked : ServletInstance}
    (h : checkAndGetForInstance s info = some checked) : checked.SamePlace info := by
  unfold checkAndGetForInstance at h
  dsimp only at h
  split at h
  next => simp at h
  next =>
    split at h
    next => simp at h
    next =>
      split at h
      next => simp at h
      next =>
        cases Option.some.inj h
        exact ⟨rfl, rfl, rfl, rfl⟩

theorem addInstance_step {request : DiscoveryManagerRequest} (now : Int) (s : Schema)
    (m : InstanceManager) (op : request.opType = .opAddInstance) :
    InstanceStep request now m (addInstance request now s m) := by
  unfold addInstance
  dsimp only
  split
  next => exact .refused _
  next checked ok =>
    have place := checkAndGetForInstance_samePlace ok
    split
    next => exact .refused _
    next absent =>
      split
      next => exact .refused _
      next => exact .added { checked with version := 1 } op place absent

theorem dropInstance_step {request : DiscoveryManagerRequest} (now : Int) (m : InstanceManager)
    (op : request.opType = .opDropInstance) :
    InstanceStep request now m (dropInstance request now m) := by
  unfold dropInstance
  dsimp only
  split
  next => exact .refused _
  next info found => exact .dropped info op found

theorem updateInstance_step {request : DiscoveryManagerRequest} (now : Int)
    (m : InstanceManager) (op : request.opType = .opUpdateInstance) :
    InstanceStep request now m (updateInstance request m) := by
  unfold updateInstance
  dsimp only
  split
  next => exact .refused _
  next old found => exact .updated old _ op found ⟨rfl, rfl, rfl, rfl⟩

theorem instancesPlan_step {request : DiscoveryManagerRequest} {now : Int} {s : Schema}
    {m : InstanceManager} {p : Plan InstanceManager}
    (h : instancesPlan request now s m = some p) : InstanceStep request now m p := by
  unfold instancesPlan at h
  split at h
  case h_1 op => exact Option.some.inj h ▸ addInstance_step now s m op
  case h_2 op => exact Option.some.inj h ▸ dropInstance_step now m op
  case h_3 op => exact Option.some.inj h ▸ updateInstance_step now m op
  case h_4 => simp at h

end EA
