import EA.Lib.Service
import EA.NodeRecovery
import EA.ServerAnswers

namespace EA.DiscoveryServer

variable {serialises : MetaValue → Bool} {ι : Type}

/-- The entry of the request, as the discovery state machine parses it. -/
def ManagerRequest.parsed (request : ManagerRequest) : DiscoveryManagerRequest where
  opType := request.opType.known
  namespaceInfo := request.namespaceInfo.getD {}
  zoneInfo := request.zoneInfo.getD {}
  servletInfo := request.servletInfo.getD {}
  instanceInfo := (request.instanceInfo.getD {}).received
  userPrivilege := request.userPrivilege.getD {}
  configInfo := request.configInfo.getD {}

theorem entry_discovery (request : ManagerRequest) :
    request.entry .discovery = .discovery request.parsed := rfl

/-- What has become of an RPC. -/
inductive Outcome where
  | waiting
  /-- Answered without its entry: by a check, or by a closure that failed. -/
  | refused (a : RpcAnswer)
  /-- Answered by `on_apply` under its closure. -/
  | applied (response : ManagerResponse)
  /-- Its process died. -/
  | lost

/-- An RPC to one of the processes. `arrivedAt` and `endedAt` are counted in steps, and
`index` is the place of its entry in the log. -/
structure ServiceCall (ι : Type) where
  rpc : Nat
  node : ι
  request : ManagerRequest
  arrivedAt : Nat
  proposed : Bool := false
  index : Option Nat := none
  outcome : Outcome := .waiting
  endedAt : Nat := 0

/-- All processes of the service, with what their clients have sent. -/
structure CatalogService (ι : Type) where
  clock : Nat := 0
  cluster : DiscoveryCluster ι := {}
  calls : List (ServiceCall ι) := []

inductive ServiceEvent (ι : Type) where
  /-- An RPC comes in and passes the checks of `discovery_manager`, or is answered. -/
  | discoveryManager (rpc : Nat) (i : ι) (request : ManagerRequest) (initSuccess isLeader : Bool)
      (leaderId : Bytes)
  /-- `BaseStateMachine::process`. -/
  | process (rpc : Nat) (isLeader serialised : Bool) (leaderId : Bytes)
  /-- The entry of a proposed RPC is committed, whether or not its closure still waits. -/
  | commit (rpc : Nat)
  | closureFailed (rpc : Nat) (leaderId : Bytes)
  | node (i : ι) (e : NodeEvent)
  | install (source target : ι)

namespace ServiceCall

def finish (clock : Nat) (outcome : Outcome) (call : ServiceCall ι) : ServiceCall ι :=
  { call with outcome := outcome, endedAt := clock }

/-- What `on_apply` has answered. -/
def response (call : ServiceCall ι) : Option ManagerResponse :=
  match call.outcome with
  | .applied response => some response
  | .waiting | .refused _ | .lost => none

theorem response_eq_some {call : ServiceCall ι} {response : ManagerResponse} :
    call.response = some response ↔ call.outcome = .applied response := by
  unfold ServiceCall.response
  split
  next ended => simp [ended]
  next ended => simp [ended]
  next ended => simp [ended]
  next ended => simp [ended]

def fields : Service.Fields (ServiceCall ι) ManagerRequest ManagerResponse where
  name := rpc
  request := request
  arrivedAt := arrivedAt
  endedAt := endedAt
  index := index
  answer := response

/-- What an event of process `i` does to an RPC. -/
def see [DecidableEq ι] (serialises : MetaValue → Bool) (clock : Nat) (i : ι)
    (node : DiscoveryNode) (e : NodeEvent) (call : ServiceCall ι) : ServiceCall ι :=
  match call.outcome, e with
  | .waiting, .apply env =>
    if call.node = i ∧ call.index = some node.applied then
      let out := applyLogEntry serialises env (call.request.entry .discovery)
        { discovery := node.replica }
      call.finish clock (.applied (call.request.respond out.2))
    else call
  | .waiting, .restart => if call.node = i then call.finish clock .lost else call
  | _, _ => call

end ServiceCall

namespace CatalogService

/-- The RPC with this number, while it waits. -/
def find (s : CatalogService ι) (rpc : Nat) : Option (ServiceCall ι) :=
  s.calls.find? fun call => call.rpc = rpc

def setCall (s : CatalogService ι) (call : ServiceCall ι) : CatalogService ι :=
  { s with calls := s.calls.map fun c => if c.rpc = call.rpc then call else c }

def tick (s : CatalogService ι) : CatalogService ι := { s with clock := s.clock + 1 }

def step [DecidableEq ι] (serialises : MetaValue → Bool) (s : CatalogService ι) :
    ServiceEvent ι → Option (CatalogService ι)
  | .discoveryManager rpc i request initSuccess isLeader leaderId =>
    if rpc ∈ s.calls.map ServiceCall.rpc then none
    else
      let call : ServiceCall ι := { rpc := rpc, node := i, request := request, arrivedAt := s.clock }
      match DiscoveryServer.discoveryManager initSuccess isLeader leaderId request with
      | .error response => some
          { s.tick with calls := call.finish s.clock (.refused (.responded response)) :: s.calls }
      | .ok .discovery => some { s.tick with calls := call :: s.calls }
      | .ok .autoIncr => none
  | .process rpc isLeader serialised leaderId => (s.find rpc).bind fun call =>
    match call.outcome, call.proposed with
    | .waiting, false =>
      if !isLeader then
        some (s.tick.setCall (call.finish s.clock (.refused (.responded (notLeader leaderId)))))
      else if !serialised then some (s.tick.setCall (call.finish s.clock (.refused .failed)))
      else some (s.tick.setCall { call with proposed := true })
    | _, _ => none
  | .commit rpc => (s.find rpc).bind fun call =>
    if call.proposed ∧ call.index = none then
      (s.cluster.step serialises (.commit call.request.parsed)).map fun cluster =>
        { s.tick.setCall { call with index := some s.cluster.log.length } with cluster := cluster }
    else none
  | .closureFailed rpc leaderId => (s.find rpc).bind fun call =>
    match call.outcome, call.proposed with
    | .waiting, true =>
      let response : ManagerResponse := { errcode := .notLeader, leader := some leaderId }
      some (s.tick.setCall (call.finish s.clock (.refused (.responded response))))
    | _, _ => none
  | .node i e => (s.cluster.step serialises (.node i e)).map fun cluster =>
    { s.tick with
      cluster := cluster
      calls := s.calls.map (ServiceCall.see serialises s.clock i (s.cluster.nodes i) e) }
  | .install source target => (s.cluster.step serialises (.install source target)).map fun cluster =>
    { s.tick with cluster := cluster }

end CatalogService

/-- Clients ask about namespaces, zones and users, and the processes are careful. -/
def ServiceCareful (s : CatalogService ι) : ServiceEvent ι → Prop
  | .discoveryManager _ _ request _ _ _ => CatalogEvent (.apply request.parsed ⟨0, true⟩)
  | .node i e => Careful s.cluster (.node i e)
  | _ => True

end EA.DiscoveryServer
