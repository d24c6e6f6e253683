import EA.CatalogService

namespace EA

/-- The processes of the auto-increment raft group, and the log that they agree on. -/
structure AutoIncrCluster (ι : Type) where
  log : List AutoIncrRequest := []
  nodes : ι → AutoIncrReplica := fun _ => {}

inductive AutoIncrClusterEvent (ι : Type) where
  | commit (request : AutoIncrRequest)
  | node (i : ι) (e : AutoIncrEvent)
  /-- A snapshot is sent to a running process. -/
  | install (source target : ι)

/-- The snapshot is loaded in place of what the process holds. -/
def AutoIncrReplica.install (atoi : String → Option Int64) (r : AutoIncrReplica)
    (snapshot : MaxIdJson × Nat) : Option AutoIncrReplica :=
  if snapshot.2 < r.applied then none
  else (parseJson atoi snapshot.1).map fun map =>
    { r with map := map, applied := snapshot.2, snapshot := some snapshot }

def AutoIncrCluster.step {ι : Type} [DecidableEq ι] (atoi : String → Option Int64)
    (c : AutoIncrCluster ι) : AutoIncrClusterEvent ι → Option (AutoIncrCluster ι)
  | .commit request => some { c with log := c.log ++ [request] }
  | .node i e => ((c.nodes i).step atoi c.log e).map fun node =>
    { c with nodes := Function.update c.nodes i node }
  | .install source target => (c.nodes source).snapshot.bind fun snapshot =>
    ((c.nodes target).install atoi snapshot).map fun node =>
      { c with nodes := Function.update c.nodes target node }

namespace DiscoveryServer

/-- The entry of the request, as the auto-increment state machine parses it. -/
def ManagerRequest.counted (request : ManagerRequest) : AutoIncrRequest :=
  { request.autoIncrement with opType := request.opType.knownAutoIncr }

/-- What the auto-increment state machine leaves in a closure. -/
def countedResponse (a : AutoIncrResponse) : ManagerResponse :=
  { errcode := a.errcode, errmsg := a.errmsg, startId := a.startId, endId := a.endId }

/-- The processes with the auto-increment RPCs of their clients. -/
structure CounterService (ι : Type) where
  clock : Nat := 0
  cluster : AutoIncrCluster ι := {}
  calls : List (ServiceCall ι) := []

inductive CounterEvent (ι : Type) where
  /-- An RPC comes in and passes the checks of `discovery_manager`, or is answered. -/
  | discoveryManager (rpc : Nat) (i : ι) (request : ManagerRequest) (initSuccess isLeader : Bool)
      (leaderId : Bytes)
  /-- `BaseStateMachine::process`. -/
  | process (rpc : Nat) (isLeader serialised : Bool) (leaderId : Bytes)
  /-- The entry of a proposed RPC is committed, whether or not its closure still waits. -/
  | commit (rpc : Nat)
  | closureFailed (rpc : Nat) (leaderId : Bytes)
  | node (i : ι) (e : AutoIncrEvent)
  | install (source target : ι)

section Service

variable {ι : Type}

/-- What an event of process `i` does to an RPC. -/
def ServiceCall.count [DecidableEq ι] (clock : Nat) (i : ι) (node : AutoIncrReplica)
    (e : AutoIncrEvent) (call : ServiceCall ι) : ServiceCall ι :=
  match call.outcome, e with
  | .waiting, .apply =>
    if call.node = i ∧ call.index = some node.applied then
      let out := autoIncrApply node.map call.request.counted
      call.finish clock (.applied (call.request.respond (countedResponse out.2)))
    else call
  | .waiting, .restart => if call.node = i then call.finish clock .lost else call
  | _, _ => call

namespace CounterService

/-- The RPC with this number. -/
def find (s : CounterService ι) (rpc : Nat) : Option (ServiceCall ι) :=
  s.calls.find? fun call => call.rpc = rpc

def tick (s : CounterService ι) : CounterService ι := { s with clock := s.clock + 1 }

def setCall (s : CounterService ι) (call : ServiceCall ι) : CounterService ι :=
  { s with calls := ServiceCall.fields.replace call s.calls }

def step [DecidableEq ι] (atoi : String → Option Int64) (s : CounterService ι) :
    CounterEvent ι → Option (CounterService ι)
  | .discoveryManager rpc i request initSuccess isLeader leaderId =>
    if rpc ∈ s.calls.map ServiceCall.rpc then none
    else
      let call : ServiceCall ι := { rpc := rpc, node := i, request := request, arrivedAt := s.clock }
      match DiscoveryServer.discoveryManager initSuccess isLeader leaderId request with
      | .error response => some
          { s.tick with calls := call.finish s.clock (.refused (.responded response)) :: s.calls }
      | .ok .autoIncr => some { s.tick with calls := call :: s.calls }
      | .ok .discovery => none
  | .process rpc isLeader serialised leaderId => (s.find rpc).bind fun call =>
    match call.outcome, call.proposed with
    | .waiting, false =>
      if !isLeader then
        some (s.tick.setCall (call.finish s.clock (.refused (.responded (notLeader leaderId)))))
      else if !serialised then some (s.tick.setCall (call.finish s.clock (.refused .failed)))
      else some (s.tick.setCall { call with proposed := true })
    | _, _ => none
  | .commit rpc => (s.find rpc).bind fun call =>
    if call.proposed ∧ call.index = none then
      (s.cluster.step atoi (.commit call.request.counted)).map fun cluster =>
        { s.tick.setCall { call with index := some s.cluster.log.length } with cluster := cluster }
    else none
  | .closureFailed rpc leaderId => (s.find rpc).bind fun call =>
    match call.outcome, call.proposed with
    | .waiting, true =>
      let response : ManagerResponse := { errcode := .notLeader, leader := some leaderId }
      some (s.tick.setCall (call.finish s.clock (.refused (.responded response))))
    | _, _ => none
  | .node i e => (s.cluster.step atoi (.node i e)).map fun cluster =>
    { s.tick with
      cluster := cluster
      calls := s.calls.map (ServiceCall.count s.clock i (s.cluster.nodes i) e) }
  | .install source target => (s.cluster.step atoi (.install source target)).map fun cluster =>
    { s.tick with cluster := cluster }

end CounterService

/-- What the counters answer to a request behind the log. -/
def countedAfter (log : List AutoIncrRequest) (request : ManagerRequest) : ManagerResponse :=
  request.respond (countedResponse (autoIncrApply (mapAt log log.length) request.counted).2)

end Service

end DiscoveryServer

section Nodes

variable {ι : Type} {atoi : String → Option Int64} {log : List AutoIncrRequest}
  {r r' : AutoIncrReplica}

theorem mapAt_append {n : Nat} (within : n ≤ log.length) (request : AutoIncrRequest) :
    mapAt (log ++ [request]) n = mapAt log n := by
  unfold mapAt Run.stateAt
  rw [List.take_append_of_le_length within]

theorem mapAt_take (n : Nat) :
    mapAt (log.take n) (log.take n).length = mapAt log n := by
  unfold mapAt Run.stateAt
  rw [List.take_length]

/-- A replica follows a log that goes at least as far as the replica and its snapshot. -/
structure KeepsUp (log : List AutoIncrRequest) (r : AutoIncrReplica) : Prop where
  follows : FollowsLog log r
  applied : r.applied ≤ log.length
  snapshot : ∀ json index, r.snapshot = some (json, index) → index ≤ log.length

theorem keepsUp_init (log : List AutoIncrRequest) : KeepsUp log {} where
  follows := ⟨rfl, by simp, by simp⟩
  applied := Nat.zero_le _
  snapshot := by simp

theorem KeepsUp.commit (h : KeepsUp log r) (request : AutoIncrRequest) :
    KeepsUp (log ++ [request]) r := by
  have longer : log.length ≤ (log ++ [request]).length := by simp
  refine ⟨⟨?_, ?_, ?_⟩, h.applied.trans longer, fun json index saved =>
    (h.snapshot json index saved).trans longer⟩
  · rw [mapAt_append h.applied]
    exact h.follows.map
  · intro json index saved
    rw [mapAt_append (h.snapshot json index saved)]
    exact h.follows.snapshot json index saved
  · intro index response answered
    obtain ⟨request', here, eq⟩ := h.follows.answers index response answered
    have within := (List.getElem?_eq_some_iff.mp here).1
    refine ⟨request', ?_, ?_⟩
    · rw [List.getElem?_append_left within]
      exact here
    · rw [mapAt_append (Nat.le_of_lt within)]
      exact eq

theorem KeepsUp.step (inverts : ∀ id, atoi (servletIdString id) = some id) (h : KeepsUp log r)
    {e : AutoIncrEvent} (step : r.step atoi log e = some r') : KeepsUp log r' := by
  have follows := h.follows.step inverts step
  cases e with
  | apply =>
    obtain ⟨request, next, rfl⟩ := Option.map_eq_some_iff.mp step
    exact ⟨follows, (List.getElem?_eq_some_iff.mp next).1, h.snapshot⟩
  | snapshotSave json =>
    simp only [AutoIncrReplica.step] at step
    split at step
    next =>
      cases step
      refine ⟨follows, h.applied, ?_⟩
      intro json' index saved
      cases saved
      exact h.applied
    next => cases step
  | snapshotLoad =>
    obtain ⟨⟨json, index⟩, stored, step⟩ := Option.bind_eq_some_iff.mp step
    obtain ⟨map, _, step⟩ := Option.bind_eq_some_iff.mp step
    cases step
    exact ⟨follows, h.snapshot json index stored, h.snapshot⟩
  | restart =>
    cases step
    exact ⟨follows, Nat.zero_le _, h.snapshot⟩

theorem KeepsUp.install (inverts : ∀ id, atoi (servletIdString id) = some id) (h : KeepsUp log r)
    {source : AutoIncrReplica} (sent : KeepsUp log source) {snapshot : MaxIdJson × Nat}
    (stored : source.snapshot = some snapshot) (step : r.install atoi snapshot = some r') :
    KeepsUp log r' := by
  obtain ⟨json, index⟩ := snapshot
  unfold AutoIncrReplica.install at step
  split at step
  next => cases step
  next =>
    obtain ⟨map, parsed, rfl⟩ := Option.map_eq_some_iff.mp step
    have saved := sent.follows.snapshot json index stored
    rw [parseJson_eq inverts saved] at parsed
    refine ⟨⟨(Option.some.inj parsed).symm, ?_, h.follows.answers⟩,
      sent.snapshot json index stored, ?_⟩
    · intro json' index' eq
      cases eq
      exact saved
    · intro json' index' eq
      cases eq
      exact sent.snapshot json index stored

variable [DecidableEq ι]

def AutoIncrCluster.KeepsUp (c : AutoIncrCluster ι) : Prop := ∀ i, EA.KeepsUp c.log (c.nodes i)

theorem AutoIncrCluster.KeepsUp.step (inverts : ∀ id, atoi (servletIdString id) = some id)
    {c c' : AutoIncrCluster ι} (h : c.KeepsUp) {e : AutoIncrClusterEvent ι}
    (step : c.step atoi e = some c') : c'.KeepsUp := by
  have update : ∀ {i : ι} {node : AutoIncrReplica}, EA.KeepsUp c.log node →
      AutoIncrCluster.KeepsUp { c with nodes := Function.update c.nodes i node } := by
    intro i node up j
    by_cases same : j = i
    · subst same
      simpa using up
    · simpa [same] using h j
  cases e with
  | commit request =>
    cases step
    exact fun i => (h i).commit request
  | node i e =>
    obtain ⟨node, moved, rfl⟩ := Option.map_eq_some_iff.mp step
    exact update ((h i).step inverts moved)
  | install source target =>
    obtain ⟨snapshot, stored, step⟩ := Option.bind_eq_some_iff.mp step
    obtain ⟨node, loaded, rfl⟩ := Option.map_eq_some_iff.mp step
    exact update ((h target).install inverts (h source) stored loaded)

theorem AutoIncrCluster.log_eq {c c' : AutoIncrCluster ι} {e : AutoIncrClusterEvent ι}
    (uncommitted : ∀ request, e ≠ .commit request) (step : c.step atoi e = some c') :
    c'.log = c.log := by
  cases e with
  | commit request => exact absurd rfl (uncommitted request)
  | node i e =>
    obtain ⟨node, _, rfl⟩ := Option.map_eq_some_iff.mp step
    rfl
  | install source target =>
    obtain ⟨_, _, step⟩ := Option.bind_eq_some_iff.mp step
    obtain ⟨node, _, rfl⟩ := Option.map_eq_some_iff.mp step
    rfl

end Nodes

end EA
