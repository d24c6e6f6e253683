import EA.AutoIncr
import EA.InstanceCommands

namespace EA.DiscoveryServer

/-- The operations of a manager request as they arrive. Those that the discovery state
machine knows keep their names there. -/
inductive RequestOp where
  | manager (op : OpType)
  | opModifyResourceTag | opUpdateMainLogicalRoom
  | autoIncrement (op : AutoIncrOp)
deriving DecidableEq

/-- A manager request with what its sender has set in it. -/
structure ManagerRequest where
  opType : RequestOp
  namespaceInfo : Option NameSpaceInfo := none
  zoneInfo : Option ZoneInfo := none
  servletInfo : Option ServletInfo := none
  instanceInfo : Option InstanceMessage := none
  userPrivilege : Option UserPrivilege := none
  configInfo : Option ConfigInfo := none
  autoIncrement : AutoIncrRequest := { opType := .other, servletId := 0 }
deriving DecidableEq

structure ManagerResponse where
  errcode : ErrCode
  errmsg : String := ""
  opType : Option RequestOp := none
  leader : Option Bytes := none
  startId : Option UInt64 := none
  endId : Option UInt64 := none
deriving DecidableEq

/-- The raft groups that a manager request can be handed to. -/
inductive RaftGroup where
  | discovery | autoIncr
deriving DecidableEq

/-- What a state machine takes from the log. -/
inductive LogEntry where
  | discovery (request : DiscoveryManagerRequest)
  | autoIncr (request : AutoIncrRequest)
deriving DecidableEq

/-- Operations of another state machine are unknown to this one. -/
def RequestOp.known : RequestOp → OpType
  | manager op => op
  | opModifyResourceTag | opUpdateMainLogicalRoom | autoIncrement _ => .other

def RequestOp.knownAutoIncr : RequestOp → AutoIncrOp
  | autoIncrement op => op
  | opModifyResourceTag | opUpdateMainLogicalRoom | manager _ => .other

/-- The entry as the state machine of the group parses it. -/
def ManagerRequest.entry (request : ManagerRequest) : RaftGroup → LogEntry
  | .discovery => .discovery {
      opType := request.opType.known
      namespaceInfo := request.namespaceInfo.getD {}
      zoneInfo := request.zoneInfo.getD {}
      servletInfo := request.servletInfo.getD {}
      instanceInfo := (request.instanceInfo.getD {}).received
      userPrivilege := request.userPrivilege.getD {}
      configInfo := request.configInfo.getD {} }
  | .autoIncr => .autoIncr { request.autoIncrement with opType := request.opType.knownAutoIncr }

def errorSetResponse (request : ManagerRequest) (errmsg : String) :
    Except ManagerResponse RaftGroup :=
  .error { errcode := .inputParamError, errmsg := errmsg, opType := some request.opType }

/-- `PrivilegeManager::process_user_privilege`, which leaves the leader check to the
state machine. -/
def processUserPrivilege (request : ManagerRequest) : Except ManagerResponse RaftGroup :=
  match request.userPrivilege with
  | none => errorSetResponse request "no user_privilege"
  | some user =>
    match request.opType with
    | .manager .opCreateUser =>
      if user.password.isNone then errorSetResponse request "no password" else .ok .discovery
    | .manager .opDropUser | .manager .opAddPrivilege | .manager .opDropPrivilege =>
      .ok .discovery
    | _ => errorSetResponse request "invalid op_type"

def notLeader (leaderId : Bytes) : ManagerResponse :=
  { errcode := .notLeader, errmsg := "not leader", leader := some leaderId }

/-- `SchemaManager::process_schema_info`. -/
def processSchemaInfo (isLeader : Bool) (leaderId : Bytes) (request : ManagerRequest) :
    Except ManagerResponse RaftGroup :=
  if !isLeader then .error (notLeader leaderId)
  else
    match request.opType with
    | .manager .opCreateNamespace | .manager .opModifyNamespace | .manager .opDropNamespace =>
      if request.namespaceInfo.isNone then errorSetResponse request "no namespace_info"
      else .ok .discovery
    | .manager .opCreateZone | .manager .opModifyZone | .manager .opDropZone =>
      if request.zoneInfo.isNone then errorSetResponse request "no zone_info" else .ok .discovery
    | .manager .opCreateServlet | .manager .opModifyServlet | .manager .opDropServlet =>
      if request.servletInfo.isNone then errorSetResponse request "no servlet info"
      else .ok .discovery
    | .manager .opAddInstance =>
      match processInstanceInfo ⟨.opAddInstance, request.instanceInfo⟩ with
      | .error reply => errorSetResponse request reply.errmsg
      | .ok _ => .ok .discovery
    | .manager .opDropInstance =>
      match processInstanceInfo ⟨.opDropInstance, request.instanceInfo⟩ with
      | .error reply => errorSetResponse request reply.errmsg
      | .ok _ => .ok .discovery
    | .manager .opUpdateInstance =>
      match processInstanceInfo ⟨.opUpdateInstance, request.instanceInfo⟩ with
      | .error reply => errorSetResponse request reply.errmsg
      | .ok _ => .ok .discovery
    | _ => errorSetResponse request "invalid op_type"

/-- `ConfigManager::process_schema_info`. -/
def processConfigInfo (isLeader : Bool) (leaderId : Bytes) (request : ManagerRequest) :
    Except ManagerResponse RaftGroup :=
  if !isLeader then .error (notLeader leaderId)
  else
    match request.opType with
    | .manager .opCreateConfig | .manager .opRemoveConfig =>
      if request.configInfo.isNone then errorSetResponse request "no config_info"
      else .ok .discovery
    | _ => errorSetResponse request "invalid op_type"

/-- The dispatch of `DiscoveryServer::discovery_manager`: an answer, or the state machine
whose `process` is called next. -/
def discoveryManager (initSuccess isLeader : Bool) (leaderId : Bytes) (request : ManagerRequest) :
    Except ManagerResponse RaftGroup :=
  if !initSuccess then .error { errcode := .haveNotInit, errmsg := "have not init" }
  else
    match request.opType with
    | .manager .opCreateUser | .manager .opDropUser | .manager .opAddPrivilege
    | .manager .opDropPrivilege => processUserPrivilege request
    | .manager .opCreateNamespace | .manager .opDropNamespace | .manager .opModifyNamespace
    | .manager .opCreateZone | .manager .opDropZone | .manager .opModifyZone
    | .manager .opCreateServlet | .manager .opDropServlet | .manager .opModifyServlet
    | .manager .opAddInstance | .manager .opDropInstance | .manager .opUpdateInstance
    | .opModifyResourceTag | .opUpdateMainLogicalRoom =>
      processSchemaInfo isLeader leaderId request
    | .manager .opCreateConfig | .manager .opRemoveConfig =>
      processConfigInfo isLeader leaderId request
    | .autoIncrement .opGenIdForAutoIncrement | .autoIncrement .opUpdateForAutoIncrement
    | .autoIncrement .opAddIdForAutoIncrement | .autoIncrement .opDropIdForAutoIncrement =>
      .ok .autoIncr
    | .manager .other | .autoIncrement .other => errorSetResponse request "invalid op_type"

/-- The state machines behind the server. -/
structure Machines where
  discovery : Replica := {}
  counters : AutoIncrementMap := ∅

/-- `on_apply` of the entry's state machine, with the response it leaves in a closure. -/
def applyLogEntry (serialises : MetaValue → Bool) (env : Env) (entry : LogEntry) (m : Machines) :
    Machines × ManagerResponse :=
  match entry with
  | .discovery request =>
    let out := onApply serialises request env m.discovery
    ({ m with discovery := out.1 }, { errcode := out.2.errcode, errmsg := out.2.errmsg })
  | .autoIncr request =>
    let out := autoIncrApply m.counters request
    ({ m with counters := out.1 },
      { errcode := out.2.errcode, errmsg := out.2.errmsg, startId := out.2.startId,
        endId := out.2.endId })

/-- How an RPC ends: with a response, or failed by `SetFailed`. -/
inductive RpcAnswer where
  | responded (response : ManagerResponse)
  | failed
deriving DecidableEq

/-- What the handlers of an RPC do: they fill in its response, run its `done`, which sends the
response off as it is then, and pass `done` on to `process` or to a task of the raft group.
An errcode that is not set reads as SUCCESS. -/
structure Handling where
  response : ManagerResponse := { errcode := .success }
  isFailed : Bool := false
  sent : List RpcAnswer := []
  processed : List (RaftGroup × Bool) := []
  tasks : List Bool := []

def Handling.runDone (h : Handling) : Handling :=
  { h with sent := (if h.isFailed then .failed else .responded h.response) :: h.sent }

/-- `brpc::ClosureGuard`, which holds a closure or a null pointer. -/
structure ClosureGuard where
  held : Bool

/-- The guard gives its closure away and holds none any more. -/
def ClosureGuard.release (guard : ClosureGuard) : Bool × ClosureGuard := (guard.held, ⟨false⟩)

/-- The end of the guard's scope. -/
def ClosureGuard.leave (guard : ClosureGuard) (run : Handling → Handling) (h : Handling) :
    Handling :=
  if guard.held then run h else h

/-- What `process_user_privilege` and the two `process_schema_info` have in common: they answer
under their guard or give `done` to `process`. -/
def checked (check : Except ManagerResponse RaftGroup) (done : Bool) (h : Handling) : Handling :=
  let guard : ClosureGuard := ⟨done⟩
  match check with
  | .error response => guard.leave .runDone { h with response := response }
  | .ok group =>
    let r := guard.release
    r.2.leave .runDone { h with processed := (group, r.1) :: h.processed }

/-- `DiscoveryServer::discovery_manager` with its `done`. -/
def discoveryManagerRpc (initSuccess isLeader : Bool) (leaderId : Bytes)
    (request : ManagerRequest) (done : Bool) : Handling :=
  let guard : ClosureGuard := ⟨done⟩
  if !initSuccess then
    guard.leave .runDone { response := { errcode := .haveNotInit, errmsg := "have not init" } }
  else
    match request.opType with
    | .manager .opCreateUser | .manager .opDropUser | .manager .opAddPrivilege
    | .manager .opDropPrivilege =>
      let r := guard.release
      r.2.leave .runDone (checked (processUserPrivilege request) r.1 {})
    | .manager .opCreateNamespace | .manager .opDropNamespace | .manager .opModifyNamespace
    | .manager .opCreateZone | .manager .opDropZone | .manager .opModifyZone
    | .manager .opCreateServlet | .manager .opDropServlet | .manager .opModifyServlet
    | .manager .opAddInstance | .manager .opDropInstance | .manager .opUpdateInstance
    | .opModifyResourceTag | .opUpdateMainLogicalRoom =>
      let r := guard.release
      r.2.leave .runDone (checked (processSchemaInfo isLeader leaderId request) r.1 {})
    | .manager .opCreateConfig | .manager .opRemoveConfig =>
      let r := guard.release
      r.2.leave .runDone (checked (processConfigInfo isLeader leaderId request) r.1 {})
    | .autoIncrement .opGenIdForAutoIncrement | .autoIncrement .opUpdateForAutoIncrement
    | .autoIncrement .opAddIdForAutoIncrement | .autoIncrement .opDropIdForAutoIncrement =>
      let r := guard.release
      r.2.leave .runDone { processed := [(.autoIncr, r.1)] }
    | .manager .other | .autoIncrement .other =>
      guard.leave .runDone { response := {
        errcode := .inputParamError, errmsg := "invalid op_type", opType := some request.opType } }

/-- `BaseStateMachine::process`, which leaves `done` to the closure of its task. -/
def process (isLeader serialised : Bool) (leaderId : Bytes) (done : Bool) : Handling :=
  let guard : ClosureGuard := ⟨done⟩
  if !isLeader then guard.leave .runDone { response := notLeader leaderId }
  else if !serialised then guard.leave .runDone { isFailed := true }
  else
    let r := guard.release
    r.2.leave .runDone { tasks := [r.1] }

/-- `DiscoveryServerClosure::Run` with a good status. -/
def runClosure (done : Bool) (h : Handling) : Handling := if done then h.runDone else h

/-- The end of `on_apply` for a task with a closure, whose response is filled in. -/
def runApplied (done : Bool) (response : ManagerResponse) : Handling :=
  let guard : ClosureGuard := ⟨true⟩
  let r := guard.release
  let h := if r.1 then runClosure done { response := response } else { response := response }
  r.2.leave (runClosure done) h

/-- `DiscoveryServerClosure::Run` with a failed status. The message of the response is left
as it was. -/
def runFailed (done : Bool) (leaderId : Bytes) : Handling :=
  runClosure done { response := { errcode := .notLeader, leader := some leaderId } }

/-- A call of `process` that has not begun, or a task that is with its raft group, and whether
the `done` of its RPC is with it. -/
structure OpenRpc where
  rpc : Nat
  request : ManagerRequest
  group : RaftGroup
  proposed : Bool := false
  done : Bool := true
deriving DecidableEq

/-- What the state machines were given, newest first. -/
inductive LogItem where
  /-- An entry, with the RPC whose closure came with it. -/
  | applied (closure : Option Nat) (entry : LogEntry) (env : Env)
  | snapshotLoaded (machines : Machines)

/-- A server process with its part in the raft groups. `rpcs` lists what came in. -/
structure Server where
  initSuccess : Bool := false
  isLeader : RaftGroup → Bool := fun _ => false
  rpcs : List (Nat × ManagerRequest) := []
  opened : List OpenRpc := []
  answers : List (Nat × RpcAnswer) := []
  machines : Machines := {}
  log : List LogItem := []

inductive ServerEvent where
  | init
  | leaderStart (group : RaftGroup)
  | leaderStop (group : RaftGroup)
  /-- An RPC comes in and passes the checks, or is answered. -/
  | discoveryManager (rpc : Nat) (request : ManagerRequest) (leaderId : Bytes)
  /-- `BaseStateMachine::process` of a checked RPC. -/
  | process (rpc : Nat) (serialised : Bool) (leaderId : Bytes)
  /-- The entry of a proposed RPC is applied while its closure waits. -/
  | applyOwn (rpc : Nat) (env : Env)
  /-- An entry without a closure is applied. -/
  | applyOther (entry : LogEntry) (env : Env)
  /-- The closure of a proposed RPC is run with a failed status. -/
  | closureFailed (rpc : Nat) (leaderId : Bytes)
  | snapshotLoad (machines : Machines)

namespace Server

def find (s : Server) (rpc : Nat) (proposed : Bool) : Option OpenRpc :=
  s.opened.find? fun call => call.rpc = rpc ∧ call.proposed = proposed

def close (s : Server) (call : OpenRpc) : Server := { s with opened := s.opened.erase call }

/-- What is sent of an RPC, and where its `done` is after a handler. -/
def handled (s : Server) (rpc : Nat) (request : ManagerRequest) (group : RaftGroup)
    (h : Handling) : Server :=
  { s with
    opened := h.tasks.map (fun done => ⟨rpc, request, group, true, done⟩) ++
      h.processed.map (fun p => ⟨rpc, request, p.1, false, p.2⟩) ++ s.opened
    answers := h.sent.map (fun a => (rpc, a)) ++ s.answers }

def step (serialises : MetaValue → Bool) (s : Server) : ServerEvent → Option Server
  | .init => some { s with initSuccess := true }
  | .leaderStart group => some { s with isLeader := Function.update s.isLeader group true }
  | .leaderStop group => some { s with isLeader := Function.update s.isLeader group false }
  | .discoveryManager rpc request leaderId =>
    if rpc ∈ s.rpcs.map Prod.fst then none
    else some ({ s with rpcs := (rpc, request) :: s.rpcs }.handled rpc request .discovery
      (discoveryManagerRpc s.initSuccess (s.isLeader .discovery) leaderId request true))
  | .process rpc serialised leaderId => (s.find rpc false).map fun call =>
    (s.close call).handled rpc call.request call.group
      (DiscoveryServer.process (s.isLeader call.group) serialised leaderId call.done)
  | .applyOwn rpc env => (s.find rpc true).map fun call =>
    let entry := call.request.entry call.group
    let out := applyLogEntry serialises env entry s.machines
    { (s.close call).handled rpc call.request call.group
        (runApplied call.done { out.2 with opType := some call.request.opType }) with
      machines := out.1, log := .applied (some rpc) entry env :: s.log }
  | .applyOther entry env => some { s with
      machines := (applyLogEntry serialises env entry s.machines).1
      log := .applied none entry env :: s.log }
  | .closureFailed rpc leaderId => (s.find rpc true).map fun call =>
    (s.close call).handled rpc call.request call.group (runFailed call.done leaderId)
  | .snapshotLoad machines => some { s with
      machines := machines, log := .snapshotLoaded machines :: s.log }

end Server

/-- The state machines after a log. -/
def replay (serialises : MetaValue → Bool) : List LogItem → Machines
  | [] => {}
  | .applied _ entry env :: log => (applyLogEntry serialises env entry (replay serialises log)).1
  | .snapshotLoaded machines :: _ => machines

/-- The request carries what its operation is about. -/
def ManagerRequest.Complete (request : ManagerRequest) : RaftGroup → Prop
  | .autoIncr => request.opType.knownAutoIncr ≠ .other
  | .discovery =>
    match request.opType.known with
    | .opCreateUser => ∃ user, request.userPrivilege = some user ∧ user.password.isSome
    | .opDropUser | .opAddPrivilege | .opDropPrivilege => request.userPrivilege.isSome
    | .opCreateNamespace | .opDropNamespace | .opModifyNamespace => request.namespaceInfo.isSome
    | .opCreateZone | .opDropZone | .opModifyZone => request.zoneInfo.isSome
    | .opCreateServlet | .opDropServlet | .opModifyServlet => request.servletInfo.isSome
    | .opAddInstance | .opDropInstance | .opUpdateInstance =>
      ∃ info, request.instanceInfo = some info ∧ info.address.isSome ∧ info.namespaceName.isSome ∧
        info.zoneName.isSome ∧ info.servletName.isSome ∧ info.env.isSome
    | .opCreateConfig | .opRemoveConfig => request.configInfo.isSome
    | .other => False

theorem processInstanceInfo_ok {request : InstanceRequest} {parsed : DiscoveryManagerRequest}
    (h : processInstanceInfo request = .ok parsed) :
    ∃ info, request.instanceInfo = some info ∧ info.address.isSome ∧ info.namespaceName.isSome ∧
      info.zoneName.isSome ∧ info.servletName.isSome ∧ info.env.isSome := by
  unfold processInstanceInfo at h
  split at h
  next => cases h
  next info here =>
    split at h
    next => cases h
    next set =>
      refine ⟨info, here, ?_⟩
      simp only [Bool.or_eq_true, not_or, Bool.not_eq_true, Option.isNone_eq_false_iff] at set
      obtain ⟨⟨⟨⟨namespaceName, zoneName⟩, servletName⟩, address⟩, env⟩ := set
      exact ⟨address, namespaceName, zoneName, servletName, env⟩

theorem present_ok {α : Type} {x : Option α} {request : ManagerRequest} {errmsg : String}
    {group : RaftGroup}
    (h : (if x.isNone then errorSetResponse request errmsg else .ok .discovery) = .ok group) :
    group = .discovery ∧ x.isSome := by
  cases x with
  | none => cases h
  | some a =>
    cases h
    exact ⟨rfl, rfl⟩

theorem processUserPrivilege_ok {request : ManagerRequest} {group : RaftGroup}
    (h : processUserPrivilege request = .ok group) : request.Complete group := by
  unfold processUserPrivilege at h
  split at h
  next => cases h
  next user here =>
    cases op : request.opType with
    | manager m =>
      cases m with
      | opCreateUser =>
        simp only [op] at h
        split at h
        next => cases h
        next password =>
          cases h
          have set : user.password.isSome := by simpa [Option.isSome_iff_ne_none] using password
          simpa only [ManagerRequest.Complete, op, RequestOp.known] using ⟨user, here, set⟩
      | opDropUser | opAddPrivilege | opDropPrivilege =>
        simp only [op] at h
        cases h
        simp only [ManagerRequest.Complete, op, RequestOp.known, here, Option.isSome_some]
      | _ =>
        simp only [op] at h
        cases h
    | _ =>
      simp only [op] at h
      cases h

theorem processSchemaInfo_ok {isLeader : Bool} {leaderId : Bytes} {request : ManagerRequest}
    {group : RaftGroup} (h : processSchemaInfo isLeader leaderId request = .ok group) :
    request.Complete group := by
  unfold processSchemaInfo at h
  split at h
  next => cases h
  next =>
    cases op : request.opType with
    | manager m =>
      cases m with
      | opCreateNamespace | opModifyNamespace | opDropNamespace
      | opCreateZone | opModifyZone | opDropZone
      | opCreateServlet | opModifyServlet | opDropServlet =>
        simp only [op] at h
        obtain ⟨rfl, here⟩ := present_ok h
        simpa only [ManagerRequest.Complete, op, RequestOp.known] using here
      | opAddInstance | opDropInstance | opUpdateInstance =>
        simp only [op] at h
        split at h
        next => cases h
        next parsed ok =>
          cases h
          simpa only [ManagerRequest.Complete, op, RequestOp.known] using processInstanceInfo_ok ok
      | _ =>
        simp only [op] at h
        cases h
    | _ =>
      simp only [op] at h
      cases h

theorem processConfigInfo_ok {isLeader : Bool} {leaderId : Bytes} {request : ManagerRequest}
    {group : RaftGroup} (h : processConfigInfo isLeader leaderId request = .ok group) :
    request.Complete group := by
  unfold processConfigInfo at h
  split at h
  next => cases h
  next =>
    cases op : request.opType with
    | manager m =>
      cases m with
      | opCreateConfig | opRemoveConfig =>
        simp only [op] at h
        obtain ⟨rfl, here⟩ := present_ok h
        simpa only [ManagerRequest.Complete, op, RequestOp.known] using here
      | _ =>
        simp only [op] at h
        cases h
    | _ =>
      simp only [op] at h
      cases h

theorem discoveryManager_ok {initSuccess isLeader : Bool} {leaderId : Bytes}
    {request : ManagerRequest} {group : RaftGroup}
    (h : discoveryManager initSuccess isLeader leaderId request = .ok group) :
    request.Complete group := by
  unfold discoveryManager at h
  split at h
  next => cases h
  next =>
    cases op : request.opType with
    | manager m =>
      cases m with
      | opCreateUser | opDropUser | opAddPrivilege | opDropPrivilege =>
        simp only [op] at h
        exact processUserPrivilege_ok h
      | opCreateConfig | opRemoveConfig =>
        simp only [op] at h
        exact processConfigInfo_ok h
      | other =>
        simp only [op] at h
        cases h
      | _ =>
        simp only [op] at h
        exact processSchemaInfo_ok h
    | autoIncrement a =>
      cases a with
      | other =>
        simp only [op] at h
        cases h
      | _ =>
        simp only [op] at h
        cases h
        simp [ManagerRequest.Complete, op, RequestOp.knownAutoIncr]
    | opModifyResourceTag | opUpdateMainLogicalRoom =>
      simp only [op] at h
      exact processSchemaInfo_ok h

end EA.DiscoveryServer
