import EA.CatalogIds
import EA.DirectoryRuns
import EA.Lib.Writes

namespace EA

open ByteString

variable {serialises : MetaValue → Bool}

def maxIdentify : Bytes := [0xFF]

/-- The range that `on_snapshot_load` removes. -/
def removedOnLoad (key : Bytes) : Bool :=
  (compare schemaIdentify key).isLE && (compare key maxIdentify).isLT

/-- `DiscoveryStateMachine::on_snapshot_load` of a snapshot that holds `discovery_info.sst`. -/
def onSnapshotLoad (file : MetaDb) (r : Replica) : Option Replica :=
  let db := Writes.ingest file (Writes.removeRange removedOnLoad r.db)
  (loadSnapshot db r.memory).map fun m => ⟨db, m⟩

structure DiscoverySnapshot where
  file : MetaDb
  /-- The entries that the file accounts for. -/
  index : Nat

/-- A process of the discovery raft group with its disk. -/
structure DiscoveryNode where
  replica : Replica := {}
  applied : Nat := 0
  /-- The database as a crash leaves it: writes skip the write-ahead log until a flush. -/
  flushed : MetaDb := ∅
  saving : Option DiscoverySnapshot := none
  snapshot : Option DiscoverySnapshot := none
  failed : Bool := false
  /-- No entry beyond this one has left a record in the database. -/
  horizon : Nat := 0

inductive NodeEvent where
  /-- The next committed entry is applied. -/
  | apply (env : Env)
  | flush
  /-- The iterator over the database is taken. -/
  | onSnapshotSave
  /-- The file is finished. -/
  | saveSnapshot (written : Bool)
  /-- The process dies and comes up again. -/
  | restart

namespace DiscoveryNode

def load (node : DiscoveryNode) (r : Replica) (s : DiscoverySnapshot) : DiscoveryNode :=
  match onSnapshotLoad s.file r with
  | none => { node with failed := true }
  | some loaded =>
    { replica := loaded, applied := s.index, flushed := loaded.db, snapshot := some s
      horizon := s.index }

def step (serialises : MetaValue → Bool) (log : List DiscoveryManagerRequest)
    (node : DiscoveryNode) : NodeEvent → Option DiscoveryNode
  | .apply env => (log[node.applied]?).map fun request => { node with
      replica := (onApply serialises request env node.replica).1
      applied := node.applied + 1
      horizon := max node.horizon (node.applied + 1) }
  | .flush => some { node with flushed := node.replica.db }
  | .onSnapshotSave =>
    if node.saving.isSome then none
    else some { node with saving := some ⟨node.replica.db, node.applied⟩ }
  | .saveSnapshot written => node.saving.map fun s =>
    -- a file without records cannot be finished
    if written && !s.file.isEmpty then { node with saving := none, snapshot := some s }
    else { node with saving := none }
  | .restart =>
    match node.snapshot with
    | none => some { node with replica := ⟨node.flushed, {}⟩, applied := 0, saving := none }
    | some s => some (node.load ⟨node.flushed, {}⟩ s)

/-- A snapshot that is sent to a running process. -/
def install (node : DiscoveryNode) (s : DiscoverySnapshot) : Option DiscoveryNode :=
  if node.saving.isSome ∨ s.index < node.applied then none
  else some (node.load node.replica s)

end DiscoveryNode

/-- The processes of the group, and the log that they agree on. -/
structure DiscoveryCluster (ι : Type) where
  log : List DiscoveryManagerRequest := []
  nodes : ι → DiscoveryNode := fun _ => {}

inductive DiscoveryClusterEvent (ι : Type) where
  | commit (request : DiscoveryManagerRequest)
  | node (i : ι) (e : NodeEvent)
  | install (source target : ι)

section Cluster

variable {ι : Type} [DecidableEq ι]

def DiscoveryCluster.step (serialises : MetaValue → Bool) (c : DiscoveryCluster ι) :
    DiscoveryClusterEvent ι → Option (DiscoveryCluster ι)
  | .commit request => some { c with log := c.log ++ [request] }
  | .node i e => if (c.nodes i).failed then none else
    ((c.nodes i).step serialises c.log e).map fun node =>
      { c with nodes := Function.update c.nodes i node }
  | .install source target => if (c.nodes target).failed then none else
    (c.nodes source).snapshot.bind fun s => ((c.nodes target).install s).map fun node =>
      { c with nodes := Function.update c.nodes target node }

/-- Requests are on namespaces, zones and users, the database takes their writes, and no
snapshot is begun while a process repeats entries that a flush before its crash has seen. -/
def Careful (c : DiscoveryCluster ι) : DiscoveryClusterEvent ι → Prop
  | .commit request => CatalogEvent (.apply request ⟨0, true⟩)
  | .node _ (.apply env) => env.dbOk = true
  | .node i .onSnapshotSave => (c.nodes i).horizon ≤ (c.nodes i).applied
  | _ => True

end Cluster

/-! What an entry makes of memory, and what it writes, can be told without the database. -/

def Plan.written {σ : Type} (serialises : MetaValue → Bool) : Plan σ → List BatchOp
  | .refuse .. => []
  | .write value batch _ _ _ => if value.any fun v => !serialises v then [] else batch

def Memory.after (serialises : MetaValue → Bool) (m : Memory) (request : DiscoveryManagerRequest) :
    Memory :=
  ((handle request 0 m).run serialises true ∅).1.2

def Memory.writes (serialises : MetaValue → Bool) (m : Memory) (request : DiscoveryManagerRequest) :
    List BatchOp :=
  (handle request 0 m).written serialises

/-- The memory after a log, and all that it has written. -/
def replayLog (serialises : MetaValue → Bool) (log : List DiscoveryManagerRequest) :
    Memory × List BatchOp :=
  log.foldl (fun s request => (s.1.after serialises request, s.2 ++ s.1.writes serialises request))
    ({}, [])

/-- The directory after a log. -/
noncomputable def Directory.after (serialises : MetaValue → Bool)
    (log : List DiscoveryManagerRequest) : Directory :=
  log.foldl (fun d request => ((d.verdict request).settle serialises true d).1) {}

theorem batch_eq_replay (batch : List BatchOp) (db : MetaDb) :
    batch.foldl BatchOp.apply db = Writes.replay batch db := by
  induction batch generalizing db with
  | nil => rfl
  | cons op batch ih =>
    rcases op with ⟨key, value⟩
    cases value with
    | none => exact ih (db.erase key)
    | some value => exact ih (db.insert key value)

theorem Plan.run_works {σ : Type} (p : Plan σ) (db : MetaDb) :
    (p.run serialises true db).1 =
      (Writes.replay (p.written serialises) db, (p.run serialises true ∅).1.2) := by
  cases p with
  | refuse => rfl
  | write value batch dbError touched memory =>
    simp only [Plan.run, Plan.written]
    split
    next => rfl
    next => simp only [Bool.not_true, Bool.false_eq_true, if_false, batch_eq_replay]

theorem Plan.run_reply {σ : Type} (p : Plan σ) (dbOk : Bool) (db db' : MetaDb) :
    (p.run serialises dbOk db).2 = (p.run serialises dbOk db').2 := by
  cases p with
  | refuse => rfl
  | write value batch dbError touched memory =>
    simp only [Plan.run]
    split
    next => rfl
    next => split <;> rfl

theorem onApply_reply_memory (request : DiscoveryManagerRequest) (env : Env) (m : Memory)
    (db db' : MetaDb) :
    (onApply serialises request env ⟨db, m⟩).2 = (onApply serialises request env ⟨db', m⟩).2 :=
  (handle request env.now m).run_reply env.dbOk db db'

section Request

variable {request : DiscoveryManagerRequest} {env : Env}

/-- No clock is asked for namespaces, zones and users. -/
theorem handle_now (event : CatalogEvent (.apply request env)) (now now' : Int) (m : Memory) :
    handle request now m = handle request now' m := by
  have among := event.2
  unfold handle
  cases op : request.opType <;> simp_all

variable (serialises) in
theorem onApply_works (event : CatalogEvent (.apply request env)) (works : env.dbOk = true)
    (r : Replica) : (onApply serialises request env r).1 =
      ⟨Writes.replay (r.memory.writes serialises request) r.db,
        r.memory.after serialises request⟩ := by
  unfold onApply
  rw [handle_now event env.now 0, works]
  dsimp only
  rw [Plan.run_works]
  rfl

/-- What is written carries the tag of a manager. -/
theorem writes_tagged (m : Memory) :
    ∀ op ∈ m.writes serialises request, ∃ tag : UInt8, tag ∈ ([1, 2, 3, 4] : List UInt8) ∧
      [tag].isPrefixOf op.1 = true := by
  have batch : ∀ op ∈ (handle request 0 m).batch, ∃ tag : UInt8,
      tag ∈ ([1, 2, 3, 4] : List UInt8) ∧ [tag].isPrefixOf op.1 = true := by
    have handled := handle_handled request 0 m
    generalize handle request 0 m = plan at handled
    cases handled with
    | schema p h =>
      rw [Plan.batch_map]
      exact fun op mem => ⟨1, by decide, (schemaPlan_step h).tagged op mem⟩
    | users p h =>
      rw [Plan.batch_map]
      exact fun op mem => ⟨2, by decide, (usersPlan_step h).tagged op mem⟩
    | configs p h =>
      rw [Plan.batch_map]
      exact fun op mem => ⟨4, by decide, (configsPlan_step h).tagged op mem⟩
    | instances p h =>
      rw [Plan.batch_map]
      exact fun op mem => ⟨3, by decide, (instancesPlan_step h).tagged op mem⟩
    | unknown => simp [Plan.batch]
  unfold Memory.writes
  generalize handle request 0 m = plan at batch
  cases plan with
  | refuse => simp [Plan.written]
  | write value ops dbError touched memory =>
    simp only [Plan.written]
    split
    next => simp
    next => exact batch

end Request

theorem removedOnLoad_of_tag {key : Bytes} {tag : UInt8} (among : tag ∈ ([1, 2, 3, 4] : List UInt8))
    (tagged : [tag].isPrefixOf key = true) : removedOnLoad key = true := by
  cases key with
  | nil => simp at tagged
  | cons first rest =>
    have same : tag = first := by simpa using tagged
    subst same
    simp only [List.mem_cons, List.not_mem_nil, or_false] at among
    rcases among with rfl | rfl | rfl | rfl <;> cases rest <;> rfl

end EA
