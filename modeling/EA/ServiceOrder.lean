import EA.CatalogService

namespace EA.DiscoveryServer

variable {serialises : MetaValue → Bool} {ι : Type}

/-- The response of the directory to a request. -/
noncomputable def respondFrom (serialises : MetaValue → Bool) (d : Directory)
    (request : ManagerRequest) : ManagerResponse :=
  let reply := ((d.verdict request.parsed).settle serialises true d).2
  request.respond { errcode := reply.errcode, errmsg := reply.errmsg }

/-- What holds of the service whatever its clients, its elections and its disks do. -/
structure ServiceInv (serialises : MetaValue → Bool) (s : CatalogService ι) : Prop where
  cluster : NodesInv serialises s.cluster
  asked : ∀ call ∈ s.calls, CatalogEvent (.apply call.request.parsed ⟨0, true⟩)
  calls : Service.Ordered ServiceCall.fields ManagerRequest.parsed
    (fun log => respondFrom serialises (Directory.after serialises log))
    s.clock s.cluster.log s.calls

theorem serviceInv_init : ServiceInv serialises ({} : CatalogService ι) where
  cluster := nodesInv_init
  asked call mem := by cases mem
  calls := Service.ordered_nil

section Steps

variable {s s' : CatalogService ι}

theorem find_mem {rpc : Nat} {call : ServiceCall ι} (found : s.find rpc = some call) :
    call ∈ s.calls := List.mem_of_find?_eq_some found

/-- One RPC moves on without an answer from the log. -/
theorem ServiceInv.setCall (h : ServiceInv serialises s) {call call' : ServiceCall ι}
    (mem : call ∈ s.calls) (keeps : ServiceCall.fields.Keeps call call')
    (ends : (call'.response = call.response ∧ call'.endedAt = call.endedAt) ∨
      (call'.endedAt = s.clock ∧ call'.response = none)) :
    ServiceInv serialises (s.tick.setCall call') where
  cluster := h.cluster
  asked := by
    have own : CatalogEvent (.apply call'.request.parsed ⟨0, true⟩) := by
      have same : call'.request = call.request := keeps.request
      rw [same]
      exact h.asked call mem
    exact ServiceCall.fields.forall_replace call' own h.asked
  calls := h.calls.moveOn mem keeps ends

theorem ServiceInv.refuse (h : ServiceInv serialises s) {call : ServiceCall ι}
    (mem : call ∈ s.calls) (a : RpcAnswer) :
    ServiceInv serialises (s.tick.setCall (call.finish s.clock (.refused a))) :=
  h.setCall mem ⟨rfl, rfl, rfl, rfl⟩ (Or.inr ⟨rfl, rfl⟩)

/-- An RPC comes in, and may be answered at once. -/
theorem ServiceInv.arrive (h : ServiceInv serialises s) {call : ServiceCall ι}
    (fresh : call.rpc ∉ s.calls.map ServiceCall.rpc) (now : call.arrivedAt = s.clock)
    (uncommitted : call.index = none) (unanswered : call.response = none)
    (event : CatalogEvent (.apply call.request.parsed ⟨0, true⟩)) :
    ServiceInv serialises { s.tick with calls := call :: s.calls } where
  cluster := h.cluster
  asked := List.forall_mem_cons.mpr ⟨event, h.asked⟩
  calls := h.calls.arrive fresh now uncommitted unanswered

/-- An entry is committed behind all others. -/
theorem ServiceInv.commit (h : ServiceInv serialises s) {call : ServiceCall ι}
    (mem : call ∈ s.calls) (uncommitted : call.index = none) :
    ServiceInv serialises
      { s.tick.setCall { call with index := some s.cluster.log.length } with
        cluster := { s.cluster with log := s.cluster.log ++ [call.request.parsed] } } where
  cluster := h.cluster.commit (h.asked call mem)
  asked := ServiceCall.fields.forall_replace { call with index := some s.cluster.log.length }
    (h.asked call mem) h.asked
  calls := h.calls.commit mem uncommitted { call with index := some s.cluster.log.length }
    rfl rfl rfl rfl rfl

variable [DecidableEq ι]

theorem see_keeps {clock : Nat} {i : ι} {node : DiscoveryNode} {e : NodeEvent}
    (call : ServiceCall ι) :
    ServiceCall.fields.Keeps call (call.see serialises clock i node e) := by
  unfold ServiceCall.see
  split
  next => split <;> exact ⟨rfl, rfl, rfl, rfl⟩
  next => split <;> exact ⟨rfl, rfl, rfl, rfl⟩
  next => exact ⟨rfl, rfl, rfl, rfl⟩

/-- An RPC that ends when its entry is applied has the answer of the directory before it. -/
theorem ServiceInv.see (h : ServiceInv serialises s) {i : ι} {e : NodeEvent}
    (careful : Careful s.cluster (.node i e)) {call : ServiceCall ι} (mem : call ∈ s.calls) :
    let seen := call.see serialises s.clock i (s.cluster.nodes i) e
    (seen.response = call.response ∧ seen.endedAt = call.endedAt) ∨
      (seen.endedAt = s.clock ∧ ∀ response, seen.response = some response →
        ∃ n, call.index = some n ∧ response = respondFrom serialises
          (Directory.after serialises (s.cluster.log.take n)) call.request) := by
  intro seen
  unfold seen ServiceCall.see
  split
  next env _ =>
    split
    next own =>
      refine Or.inr ⟨rfl, fun response ended => ⟨(s.cluster.nodes i).applied, own.2, ?_⟩⟩
      have event : CatalogEvent (.apply call.request.parsed env) := h.asked call mem
      have reply := h.cluster.reply i event
      have works : env.dbOk = true := careful
      cases ended
      rw [works] at reply
      simp only [applyLogEntry, entry_discovery, respondFrom, reply]
    next => exact Or.inl ⟨rfl, rfl⟩
  next =>
    split
    next => exact Or.inr ⟨rfl, by simp [ServiceCall.finish, ServiceCall.response]⟩
    next => exact Or.inl ⟨rfl, rfl⟩
  next => exact Or.inl ⟨rfl, rfl⟩

theorem ServiceInv.node (h : ServiceInv serialises s) {i : ι} {e : NodeEvent}
    (careful : Careful s.cluster (.node i e)) {cluster : DiscoveryCluster ι}
    (inv : NodesInv serialises cluster) (log : cluster.log = s.cluster.log) :
    ServiceInv serialises
      { s.tick with
        cluster := cluster
        calls := s.calls.map (ServiceCall.see serialises s.clock i (s.cluster.nodes i) e) } where
  cluster := inv
  asked := by
    intro call mem
    obtain ⟨old, known, rfl⟩ := List.mem_map.mp mem
    have same : (old.see serialises s.clock i (s.cluster.nodes i) e).request = old.request :=
      (see_keeps old).request
    rw [same]
    exact h.asked old known
  calls := by
    dsimp only
    rw [log]
    exact h.calls.update (fun call _ => see_keeps call) fun call mem => h.see careful mem

omit [DecidableEq ι] in
/-- The processes move on, and no RPC takes notice. -/
theorem ServiceInv.elsewhere (h : ServiceInv serialises s) {cluster : DiscoveryCluster ι}
    (inv : NodesInv serialises cluster) (log : cluster.log = s.cluster.log) :
    ServiceInv serialises { s.tick with cluster := cluster } where
  cluster := inv
  asked := h.asked
  calls := by
    have kept := h.calls.update (f := id) (fun _ _ => ⟨rfl, rfl, rfl, rfl⟩)
      fun _ _ => Or.inl ⟨rfl, rfl⟩
    rw [List.map_id] at kept
    dsimp only
    rw [log]
    exact kept

theorem cluster_log {c c' : DiscoveryCluster ι} {e : DiscoveryClusterEvent ι}
    (uncommitted : ∀ request, e ≠ .commit request) (step : c.step serialises e = some c') :
    c'.log = c.log := by
  cases e with
  | commit request => exact absurd rfl (uncommitted request)
  | node i e =>
    simp only [DiscoveryCluster.step] at step
    split at step
    next => cases step
    next =>
      obtain ⟨node, _, rfl⟩ := Option.map_eq_some_iff.mp step
      rfl
  | install source target =>
    simp only [DiscoveryCluster.step] at step
    split at step
    next => cases step
    next =>
      obtain ⟨_, _, step⟩ := Option.bind_eq_some_iff.mp step
      obtain ⟨node, _, rfl⟩ := Option.map_eq_some_iff.mp step
      rfl

theorem ServiceInv.process (h : ServiceInv serialises s) {rpc : Nat} {isLeader serialised : Bool}
    {leaderId : Bytes}
    (step : s.step serialises (.process rpc isLeader serialised leaderId) = some s') :
    ServiceInv serialises s' := by
  obtain ⟨call, found, step⟩ := Option.bind_eq_some_iff.mp step
  have mem := find_mem found
  split at step
  next waiting _ =>
    split at step
    next =>
      cases step
      exact h.refuse mem _
    next =>
      split at step
      next =>
        cases step
        exact h.refuse mem _
      next =>
        cases step
        exact h.setCall mem ⟨rfl, rfl, rfl, rfl⟩ (Or.inl ⟨rfl, rfl⟩)
  next => cases step

theorem ServiceInv.step (h : ServiceInv serialises s) {e : ServiceEvent ι}
    (careful : ServiceCareful s e) (step : s.step serialises e = some s') :
    ServiceInv serialises s' := by
  cases e with
  | discoveryManager rpc i request initSuccess isLeader leaderId =>
    simp only [CatalogService.step] at step
    split at step
    next => cases step
    next fresh =>
      split at step
      next =>
        cases step
        exact h.arrive fresh rfl rfl rfl careful
      next =>
        cases step
        exact h.arrive fresh rfl rfl rfl careful
      next => cases step
  | process rpc isLeader serialised leaderId => exact h.process step
  | commit rpc =>
    obtain ⟨call, found, step⟩ := Option.bind_eq_some_iff.mp step
    split at step
    next pending =>
      obtain ⟨cluster, committed, rfl⟩ := Option.map_eq_some_iff.mp step
      cases committed
      exact h.commit (find_mem found) pending.2
    next => cases step
  | closureFailed rpc leaderId =>
    obtain ⟨call, found, step⟩ := Option.bind_eq_some_iff.mp step
    split at step
    next =>
      cases step
      exact h.refuse (find_mem found) _
    next => cases step
  | node i e =>
    obtain ⟨cluster, moved, rfl⟩ := Option.map_eq_some_iff.mp step
    exact h.node careful (h.cluster.step careful moved) (cluster_log (by simp) moved)
  | install source target =>
    obtain ⟨cluster, moved, rfl⟩ := Option.map_eq_some_iff.mp step
    exact h.elsewhere (h.cluster.step (e := .install source target) trivial moved)
      (cluster_log (by simp) moved)

end Steps

section Runs

variable [DecidableEq ι]

abbrev ServiceReachable (serialises : MetaValue → Bool) (s : CatalogService ι) : Prop :=
  Reach.From (CatalogService.step serialises) ServiceCareful {} s

theorem reachable_serviceInv {s : CatalogService ι} (run : ServiceReachable serialises s) :
    ServiceInv serialises s :=
  Reach.From.invariant serviceInv_init (fun _ _ _ _ h careful step => h.step careful step) run

/-- Over every interleaving of clients, elections, crashes and installed snapshots, the log
orders the requests as one directory that takes them one by one: each answer from the log is
the directory's at the place of the entry, the entries are the requests of different RPCs, and
an RPC that came in after another was answered has its entry behind the other's. -/
theorem catalog_linearizable {s : CatalogService ι} (run : ServiceReachable serialises s) :
    (∀ call ∈ s.calls, ∀ response, call.outcome = .applied response →
      ∃ n, call.index = some n ∧ s.cluster.log[n]? = some call.request.parsed ∧ response =
        respondFrom serialises (Directory.after serialises (s.cluster.log.take n)) call.request) ∧
      (∀ n < s.cluster.log.length, ∃! call, call ∈ s.calls ∧ call.index = some n) ∧
      ∀ call ∈ s.calls, ∀ call' ∈ s.calls, ∀ response, call.outcome = .applied response →
        call.endedAt < call'.arrivedAt →
          ∀ n n', call.index = some n → call'.index = some n' → n < n' := by
  have inv := reachable_serviceInv run
  obtain ⟨placed, once⟩ := inv.calls.linearizes
  refine ⟨?_, once, ?_⟩
  · intro call mem response ended
    exact placed call mem response (ServiceCall.response_eq_some.mpr ended)
  · intro call mem call' mem' response ended later n n' here here'
    exact inv.calls.ordered call mem call' mem' response (ServiceCall.response_eq_some.mpr ended)
      later n n' here here'

end Runs

instance [DecidableEq ι] (s : CatalogService ι) (e : ServiceEvent ι) :
    Decidable (ServiceCareful s e) := by
  cases e with
  | discoveryManager rpc i request =>
    exact inferInstanceAs (Decidable (CatalogEvent (.apply request.parsed ⟨0, true⟩)))
  | node i e => exact inferInstanceAs (Decidable (Careful s.cluster (.node i e)))
  | process => exact isTrue trivial
  | commit => exact isTrue trivial
  | closureFailed => exact isTrue trivial
  | install => exact isTrue trivial

/-- Two requests for one namespace. The first is told of a lost leader though its entry stays,
the second comes to the new leader. -/
def handoverEvents : List (ServiceEvent Bool) :=
  [.discoveryManager 1 true createShop true true [], .process 1 true true [], .closureFailed 1 [],
    .commit 1, .discoveryManager 2 false createShop true true [], .process 2 true true [],
    .commit 2, .node false (.apply ⟨0, true⟩), .node false (.apply ⟨0, true⟩),
    .node true .restart, .node true (.apply ⟨5, true⟩)]

def handoverAnswer : ManagerResponse :=
  { errcode := .inputParamError, errmsg := "namespace already existed"
    opType := some (.manager .opCreateNamespace) }

theorem catalog_linearizable_over_handover : ∃ s : CatalogService Bool,
    ∃ call ∈ s.calls, call.rpc = 2 ∧ call.outcome = .applied handoverAnswer ∧
      ∃ n, call.index = some n ∧ handoverAnswer =
        respondFrom (fun _ => true) (Directory.after (fun _ => true) (s.cluster.log.take n))
          call.request := by
  have run : ((handoverEvents.foldlM (fun s e => if ServiceCareful s e then
      s.step (fun _ => true) e else none) {}).bind fun s : CatalogService Bool =>
        (s.find 2).bind ServiceCall.response) = some handoverAnswer := by decide
  obtain ⟨s, reached, run⟩ := Option.bind_eq_some_iff.mp run
  obtain ⟨call, found, response⟩ := Option.bind_eq_some_iff.mp run
  have mem := find_mem found
  have named : call.rpc = 2 := by simpa using List.find?_some found
  have ended := ServiceCall.response_eq_some.mp response
  obtain ⟨n, here, _, answer⟩ :=
    (catalog_linearizable (Reach.From.of_checked reached)).1 call mem _ ended
  exact ⟨s, call, mem, named, ended, n, here, answer⟩

end EA.DiscoveryServer
