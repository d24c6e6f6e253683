import EA.NodeInvariant

namespace EA

open ByteString

variable {serialises : MetaValue → Bool}

section Cluster

variable {ι : Type} {c c' : DiscoveryCluster ι}

structure NodesInv (serialises : MetaValue → Bool) (c : DiscoveryCluster ι) : Prop where
  allowed : CatalogLog c.log
  nodes : ∀ i, NodeInv serialises c.log (c.nodes i)

theorem nodesInv_init : NodesInv serialises ({} : DiscoveryCluster ι) where
  allowed request mem := by simp at mem
  nodes _ := nodeInv_init serialises

theorem NodesInv.commit (h : NodesInv serialises c) {request : DiscoveryManagerRequest}
    (event : CatalogEvent (.apply request ⟨0, true⟩)) :
    NodesInv serialises { c with log := c.log ++ [request] } where
  allowed q mem := by
    rcases List.mem_append.mp mem with old | new
    · exact h.allowed q old
    · rwa [List.mem_singleton.mp new]
  nodes i := (h.nodes i).commit request

theorem NodesInv.nodeStep (h : NodesInv serialises c) {i : ι} {e : NodeEvent}
    (careful : Careful c (.node i e)) {node : DiscoveryNode}
    (step : (c.nodes i).step serialises c.log e = some node) : NodeInv serialises c.log node := by
  have inv := h.nodes i
  cases e with
  | apply env =>
    obtain ⟨request, next, rfl⟩ := Option.map_eq_some_iff.mp step
    exact inv.apply h.allowed next careful
  | flush =>
    cases step
    exact inv.flush
  | onSnapshotSave =>
    simp only [DiscoveryNode.step] at step
    split at step
    next => cases step
    next =>
      cases step
      exact inv.onSnapshotSave h.allowed careful
  | saveSnapshot written =>
    obtain ⟨s, saving, eq⟩ := Option.map_eq_some_iff.mp step
    split at eq
    next =>
      subst eq
      exact inv.saved h.allowed saving
    next =>
      subst eq
      exact inv.notSaved
  | restart =>
    simp only [DiscoveryNode.step] at step
    split at step
    next fresh =>
      cases step
      exact inv.restart fresh
    next s has =>
      cases step
      refine nodeInv_load _ (inv.snapshots s (Or.inl has)) inv.tagged.2 fun m _ kind => ?_
      cases kind <;> exact Nat.zero_le _

theorem NodesInv.reply (h : NodesInv serialises c) (i : ι) {request : DiscoveryManagerRequest}
    {env : Env} (event : CatalogEvent (.apply request env)) :
    let d := Directory.after serialises (c.log.take (c.nodes i).applied)
    (onApply serialises request env (c.nodes i).replica).2 =
      ((d.verdict request).settle serialises env.dbOk d).2 := by
  obtain ⟨db, represents⟩ := (h.nodes i).memory h.allowed
  have reply := (answer_follows represents event).1
  rw [onApply_reply_memory request env (c.nodes i).replica.memory (c.nodes i).replica.db db]
  exact Answer.replied.inj reply

variable [DecidableEq ι]

theorem NodesInv.update (h : NodesInv serialises c) {i : ι} {node : DiscoveryNode}
    (inv : NodeInv serialises c.log node) :
    NodesInv serialises { c with nodes := Function.update c.nodes i node } where
  allowed := h.allowed
  nodes j := by
    by_cases same : j = i
    · subst same
      simpa using inv
    · simpa [Function.update_of_ne same] using h.nodes j

theorem NodesInv.step (h : NodesInv serialises c) {e : DiscoveryClusterEvent ι}
    (careful : Careful c e) (step : c.step serialises e = some c') : NodesInv serialises c' := by
  cases e with
  | commit request =>
    cases step
    exact h.commit careful
  | node i e =>
    simp only [DiscoveryCluster.step] at step
    split at step
    next => cases step
    next =>
      obtain ⟨node, here, rfl⟩ := Option.map_eq_some_iff.mp step
      exact h.update (h.nodeStep careful here)
  | install source target =>
    simp only [DiscoveryCluster.step] at step
    split at step
    next => cases step
    next =>
      obtain ⟨s, has, step⟩ := Option.bind_eq_some_iff.mp step
      obtain ⟨node, installed, rfl⟩ := Option.map_eq_some_iff.mp step
      have sound := (h.nodes source).snapshots s (Or.inl has)
      exact h.update ((h.nodes target).install h.allowed sound installed)

abbrev ClusterReachable (serialises : MetaValue → Bool) (c : DiscoveryCluster ι) : Prop :=
  Reach.From (DiscoveryCluster.step serialises) Careful {} c

theorem reachable_nodesInv (run : ClusterReachable serialises c) : NodesInv serialises c :=
  Reach.From.invariant nodesInv_init (fun _ _ _ _ h careful step => h.step careful step) run

/-- Over every interleaving of commits, applied entries, flushes, snapshots, crashes and
installed snapshots: each process shows the directory of the entries that it has applied and
answers the next one as this directory does, no load fails, and processes that have applied
as much answer alike but for the order in which each walks its hash maps. -/
theorem nodes_show_directory (run : ClusterReachable serialises c) (i : ι) :
    let node := c.nodes i
    let d := Directory.after serialises (c.log.take node.applied)
    (node.failed = false ∧ node.applied ≤ c.log.length) ∧
      (∀ (trim : Bytes → Bytes) (order : HashOrder), d.Shown trim order node.replica.memory) ∧
      (∀ request env, CatalogEvent (.apply request env) →
        (onApply serialises request env node.replica).2 =
          ((d.verdict request).settle serialises env.dbOk d).2) ∧
      ∀ j, (c.nodes j).applied = node.applied →
        ∀ (trim : Bytes → Bytes) (order order' : HashOrder) (q : DiscoveryQueryRequest),
          q.opType ∈ QueryOpType.ofCatalog →
            (discoveryQuery trim order q (c.nodes j).replica.memory).Shuffles
              (discoveryQuery trim order' q node.replica.memory) := by
  intro node d
  have inv := reachable_nodesInv run
  obtain ⟨db, represents⟩ := (inv.nodes i).memory inv.allowed
  refine ⟨⟨(inv.nodes i).working, (inv.nodes i).applied⟩, represents.shown,
    fun _ _ event => inv.reply i event, ?_⟩
  intro j same trim order order' q among
  obtain ⟨db', represents'⟩ := (inv.nodes j).memory inv.allowed
  rw [same] at represents'
  have maps := represents'.same_maps represents
  exact maps.shuffles trim order order' among

instance (e : DiscoveryClusterEvent ι) : Decidable (Careful c e) := by
  cases e with
  | commit request => exact inferInstanceAs (Decidable (CatalogEvent (.apply request ⟨0, true⟩)))
  | node i e =>
    cases e with
    | apply env => exact inferInstanceAs (Decidable (env.dbOk = true))
    | onSnapshotSave => exact inferInstanceAs (Decidable (_ ≤ _))
    | flush => exact isTrue trivial
    | saveSnapshot => exact isTrue trivial
    | restart => exact isTrue trivial
  | install => exact isTrue trivial

end Cluster

def createNamed (name : String) : DiscoveryManagerRequest :=
  { opType := .opCreateNamespace, namespaceInfo := { namespaceName := ascii name } }

/-- A process crashes before and after its first snapshot, which another one installs. -/
def recoveryEvents : List (DiscoveryClusterEvent Bool) :=
  [.commit (createNamed "shop"), .commit (createNamed "bank"), .node true (.apply ⟨0, true⟩),
    .node true .flush, .node true .restart, .node true (.apply ⟨1, true⟩),
    .node true .onSnapshotSave, .node true (.apply ⟨1, true⟩), .node true (.saveSnapshot true),
    .install true false, .node false (.apply ⟨2, true⟩), .node true .restart,
    .node true (.apply ⟨3, true⟩)]

theorem nodes_show_directory_recovered : ∃ c : DiscoveryCluster Bool,
    c.log = [createNamed "shop", createNamed "bank"] ∧
      ∀ i, (c.nodes i).applied = 2 ∧ ∀ (trim : Bytes → Bytes) (order : HashOrder),
        (Directory.after (fun _ => true) (c.log.take 2)).Shown trim order
          (c.nodes i).replica.memory := by
  have run : ((recoveryEvents.foldlM (fun c e => if Careful c e then
      c.step (fun _ => true) e else none) {}).map fun c : DiscoveryCluster Bool =>
        (c.log, (c.nodes true).applied, (c.nodes false).applied)) =
      some ([createNamed "shop", createNamed "bank"], 2, 2) := by decide
  obtain ⟨c, reached, eq⟩ := Option.map_eq_some_iff.mp run
  have both : ∀ i, (c.nodes i).applied = 2 := by
    intro i
    cases i
    · exact congrArg (·.2.2) eq
    · exact congrArg (·.2.1) eq
  refine ⟨c, congrArg Prod.fst eq, fun i => ⟨both i, ?_⟩⟩
  have shown := (nodes_show_directory (Reach.From.of_checked reached) i).2.1
  rwa [both i] at shown

/-- A snapshot that is begun while the log is repeated holds a namespace of an entry that
it does not account for: the process that loads it refuses this entry. -/
theorem early_snapshot_parts_processes :
    ((([.commit (createNamed "shop"), .commit (createNamed "bank"), .node true (.apply ⟨0, true⟩),
      .node false (.apply ⟨0, true⟩), .node true (.apply ⟨0, true⟩), .node true .flush,
      .node true .restart, .node true (.apply ⟨0, true⟩), .node true .onSnapshotSave,
      .node true (.saveSnapshot true), .node true .restart] :
        List (DiscoveryClusterEvent Bool)).foldlM (DiscoveryCluster.step fun _ => true) {}).map
      fun c : DiscoveryCluster Bool => ([true, false].map fun i => ((c.nodes i).applied,
        (onApply (fun _ => true) (createNamed "bank") ⟨0, true⟩ (c.nodes i).replica).2.errmsg))) =
      some [(1, "namespace already existed"), (1, "success")] := by decide

end EA
