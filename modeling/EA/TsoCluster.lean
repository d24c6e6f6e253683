import EA.TsoNode
import EA.TsoTerm

namespace EA

/-- The entries that can change `_tso_obj` when they are applied. -/
def TsoRequest.moves (r : TsoRequest) : Bool :=
  r.opType = .opUpdateTso ||
    (r.opType = .opResetTso && r.currentTimestamp.isSome && r.savePhysical.isSome)

def TsoRequest.physical (r : TsoRequest) : Int :=
  r.current.physical.toInt

/-- `closure` names the leadership whose start closure waits for the entry. -/
structure TsoEntry (ι : Type) where
  term : Nat
  origin : ι
  closure : Option Nat
  request : TsoRequest
deriving DecidableEq

/-- A replica: `term` is the last term it was elected in, `node.term` the one
its state machine was last started for. -/
structure TsoMember where
  node : TsoNode
  term : Nat
  applied : Nat
deriving DecidableEq

structure TsoGrant where
  term : Nat
  block : Block Int
deriving DecidableEq

structure TsoCluster (ι : Type) where
  members : ι → TsoMember
  elections : List (Nat × ι)
  inflight : List (TsoEntry ι)
  log : List (TsoEntry ι)
  /-- No entry of a smaller term can be committed any more. -/
  fence : Nat
  /-- How much of the log a snapshot stands for, and what `tso.file` holds. -/
  snapshots : List (Nat × Int64)
  granted : List TsoGrant

inductive TsoClusterEvent (ι : Type) where
  | elect (n : ι) (term : Nat)
  | leaderStart (n : ι) (now : Int64)
  | stopTimer (n : ι)
  | leaderStop (n : ι)
  | runClosure (n : ι) (i : Nat)
  | syncFail (n : ι) (i : Nat)
  | timer (n : ι) (now : Int64)
  | proposeUpdate (n : ι)
  | request (n : ι) (request : TsoRequest)
  | gen (n : ι) (i : Nat)
  | commit (k : Nat)
  | apply (n : ι)
  | saveSnapshot (n : ι)
  | loadSnapshot (n : ι) (k : Nat)
  | restart (n : ι)

def TsoCluster.init {ι : Type} : TsoCluster ι :=
  ⟨fun _ => ⟨.init, 0, 0⟩, [], [], [], 0, [], []⟩

/-- The closure that waits for an applied entry learns the answer of `apply`. -/
def StartClosure.deliver (term : Nat) (ok : Bool) (c : StartClosure) : StartClosure :=
  if c.term = term ∧ c.phase = .syncing then { c with phase := .synced ok } else c

def TsoNode.applyEntry (delivered : Option Nat) (request : TsoRequest) (node : TsoNode) :
    TsoNode :=
  let applied := node.apply request
  match delivered with
  | some term =>
    { applied.1 with closures :=
        node.closures.map (StartClosure.deliver term (applied.2.errcode = some .success)) }
  | none => applied.1

/-- Process death: everything in memory is lost. -/
def TsoNode.restart (node : TsoNode) : TsoNode := { TsoNode.init with term := node.term }

variable {ι : Type}

section Step

variable [DecidableEq ι]

def TsoCluster.setMember (s : TsoCluster ι) (n : ι) (m : TsoMember) : TsoCluster ι :=
  { s with members := Function.update s.members n m }

def TsoCluster.setNode (s : TsoCluster ι) (n : ι) (node : TsoNode) : TsoCluster ι :=
  s.setMember n { s.members n with node := node }

def TsoCluster.propose (s : TsoCluster ι) (n : ι) (closure : Option Nat) (request : TsoRequest) :
    TsoCluster ι :=
  { s with inflight := s.inflight ++ [⟨(s.members n).term, n, closure, request⟩] }

/-- Raft runs the closure of an entry only where it was proposed, and only
within the leadership that proposed it. -/
def TsoEntry.delivered (e : TsoEntry ι) (n : ι) (node : TsoNode) : Option Nat :=
  if e.origin = n ∧ node.role ≠ .follower ∧ e.term = node.term then e.closure else none

def TsoCluster.step (s : TsoCluster ι) : TsoClusterEvent ι → Option (TsoCluster ι)
  | .elect n term =>
    if (s.members n).term < term ∧ ∀ p ∈ s.elections, p.1 ≠ term then
      some { s.setMember n { s.members n with term := term } with
        elections := (term, n) :: s.elections }
    else none
  | .leaderStart n now =>
    let m := s.members n
    -- `on_leader_start` runs at the first entry of its term
    if m.node.role = .follower ∧ m.node.term < m.term ∧
        (∀ e ∈ s.log.take m.applied, e.term < m.term) ∧
        ∀ e ∈ s.log.drop m.applied, m.term ≤ e.term then
      some { s.setNode n (m.node.leaderStart m.term now) with fence := max s.fence m.term }
    else none
  | .stopTimer n => ((s.members n).node.step .stopTimer).map fun r => s.setNode n r.1
  | .leaderStop n => ((s.members n).node.step .leaderStop).map fun r => s.setNode n r.1
  | .runClosure n i => do
    let c ← (s.members n).node.closures[i]?
    let node ← (s.members n).node.runClosure i
    if c.phase = .created then some ((s.setNode n node).propose n (some c.term) c.request)
    else some (s.setNode n node)
  | .syncFail n i => ((s.members n).node.syncReturn i false).map (s.setNode n)
  | .timer n now => ((s.members n).node.step (.timer now)).map fun r => s.setNode n r.1
  | .proposeUpdate n => do
    let request ← (s.members n).node.update
    some ((s.setNode n { (s.members n).node with update := none }).propose n none request)
  | .request n request =>
    let node := (s.members n).node
    match EA.process request node.isLeader node.obj with
    | .propose => some (s.propose n none request)
    | _ => some (s.setNode n (node.process request).1)
  | .gen n i => do
    let node := (s.members n).node
    let call ← node.calls[i]?
    let (node', _) ← node.gen i
    match genTsoStep call node.isHealty node.obj with
    | .grant start _ =>
      some { s.setNode n node' with
        granted := s.granted ++ [⟨node.term, grantBlock start call.count⟩] }
    | _ => some (s.setNode n node')
  | .commit k => do
    let e ← s.inflight[k]?
    if s.fence ≤ e.term then
      some { s with inflight := s.inflight.eraseIdx k, log := s.log ++ [e], fence := e.term }
    else none
  | .apply n => do
    let m := s.members n
    let e ← s.log[m.applied]?
    -- `on_leader_stop` is delivered before the first entry of a later term
    if m.node.role = .follower ∨ e.term ≤ m.node.term then
      some (s.setMember n { m with
        node := m.node.applyEntry (e.delivered n m.node) e.request
        applied := m.applied + 1 })
    else none
  | .saveSnapshot n =>
    some { s with snapshots :=
      s.snapshots ++ [((s.members n).applied, tsoSnapshot (s.members n).node.obj)] }
  | .loadSnapshot n k => do
    let m := s.members n
    let (applied, save) ← s.snapshots[k]?
    if m.node.role = .follower ∧ m.applied ≤ applied then
      some (s.setMember n { m with
        node := { m.node with obj := loadTso save m.node.obj }
        applied := applied })
    else none
  | .restart n =>
    some (s.setMember n { s.members n with node := (s.members n).node.restart, applied := 0 })

end Step

def ClockInRange (now : Int64) : Prop :=
  -2 ^ 61 < now.toInt ∧ now.toInt < 2 ^ 61

/-- What the code never checks of a client's entry: that it is not forced and
that the bound it saves covers its physical part. -/
def Covered (r : TsoRequest) : Prop :=
  r.moves = true → r.force = false ∧ r.physical ≤ r.save.toInt ∧ r.save.toInt < 2 ^ 62

def AboveEarlier (log : List (TsoEntry ι)) (term : Nat) (physical : Int) : Prop :=
  ∀ e ∈ log, e.request.moves = true → e.term < term → e.request.physical < physical

/-- An accepted entry neither lowers the logical part at an unchanged physical
part nor makes an unhealthy leader healthy at an old physical part. -/
def Advances (log : List (TsoEntry ι)) (node : TsoNode) (r : TsoRequest) : Prop :=
  r.moves = true → timeFallback r node.obj = false →
    (r.current.physical = node.obj.currentTimestamp.physical →
      node.obj.currentTimestamp.logical ≤ r.current.logical) ∧
    (node.isHealty = false → r.opType = .opResetTso → AboveEarlier log node.term r.physical)

def ClusterSafe (s : TsoCluster ι) : TsoClusterEvent ι → Prop
  | .leaderStart n now =>
    ClockInRange now ∧
      (¬ (s.members n).node.obj.lastSavePhysical - now < updateTimestampIntervalMs →
        AboveEarlier s.log (s.members n).term now.toInt)
  | .timer _ now => ClockInRange now
  | .request _ request => Covered request
  | .runClosure n i => ∀ c ∈ (s.members n).node.closures[i]?, c.phase = .storing →
      (s.members n).node.role ≠ .follower ∧ c.term = (s.members n).node.term
  | .gen n i => ∀ call ∈ (s.members n).node.calls[i]?, call.phase ≠ .accepted →
      (s.members n).node.role ≠ .follower ∧ call.term = (s.members n).node.term ∧
        0 < call.count ∧ NoLogicalOverflow call.count (s.members n).node.obj
  | .apply n => ∀ e ∈ s.log[(s.members n).applied]?, (s.members n).node.role ≠ .follower →
      Advances s.log (s.members n).node e.request
  | _ => True

instance (now : Int64) : Decidable (ClockInRange now) :=
  inferInstanceAs (Decidable (_ ∧ _))

instance (r : TsoRequest) : Decidable (Covered r) :=
  inferInstanceAs (Decidable (_ → _))

instance (log : List (TsoEntry ι)) (term : Nat) (p : Int) : Decidable (AboveEarlier log term p) :=
  inferInstanceAs (Decidable (∀ e ∈ log, _ → _ → _))

instance (log : List (TsoEntry ι)) (node : TsoNode) (r : TsoRequest) :
    Decidable (Advances log node r) :=
  inferInstanceAs (Decidable (_ → _ → _))

instance (s : TsoCluster ι) (e : TsoClusterEvent ι) : Decidable (ClusterSafe s e) := by
  cases e <;> unfold ClusterSafe <;> infer_instance

@[simp] theorem syncTimestamp_moves (c : TsoTimestamp) (p : Int64) :
    (syncTimestamp c p).moves = true := rfl

@[simp] theorem syncTimestamp_physical (c : TsoTimestamp) (p : Int64) :
    (syncTimestamp c p).physical = c.physical.toInt := rfl

/-- An entry that is not forced either leaves everything as it is, or passes the
fallback test and installs its own pair and bound. -/
theorem tsoApply_cases {r : TsoRequest} (obj : TsoObj) (isHealty : Bool)
    (unforced : r.moves = true → r.force = false) :
    ((tsoApply r obj isHealty).1 = obj ∧ (tsoApply r obj isHealty).2.1 = isHealty ∧
      (tsoApply r obj isHealty).2.2.errcode ≠ some .success ∧
      (r.moves = true → timeFallback r obj = true)) ∨
    (r.moves = true ∧ timeFallback r obj = false ∧
      (tsoApply r obj isHealty).1 = ⟨r.current, r.save⟩ ∧
      (tsoApply r obj isHealty).2.1 = (isHealty || decide (r.opType = .opResetTso))) := by
  cases op : r.opType with
  | opResetTso =>
    by_cases fields : (r.currentTimestamp.isSome && r.savePhysical.isSome) = true
    · have moves : r.moves = true := by simpa [TsoRequest.moves, op] using fields
      have free := unforced moves
      cases pass : timeFallback r obj with
      | true => left; simp [tsoApply, resetTso, op, fields, pass, free]
      | false => right; simp [tsoApply, resetTso, op, fields, pass, moves]
    · left
      have still : r.moves ≠ true := by simpa [TsoRequest.moves, op] using fields
      simp [tsoApply, resetTso, op, fields, still]
  | opUpdateTso =>
    have moves : r.moves = true := by simp [TsoRequest.moves, op]
    cases pass : timeFallback r obj with
    | true => left; simp [tsoApply, updateTso, op, pass]
    | false => right; simp [tsoApply, updateTso, op, pass, moves]
  | opGenTso | opQueryTsoInfo | other => left; simp [tsoApply, TsoRequest.moves, op]

theorem onLeaderStart_cases (now : Int64) (obj : TsoObj) :
    (obj.lastSavePhysical - now < updateTimestampIntervalMs ∧ onLeaderStart now obj =
      syncTimestamp ⟨obj.lastSavePhysical + updateTimestampGuardMs, 0⟩ (now + saveIntervalMs)) ∨
    (¬ obj.lastSavePhysical - now < updateTimestampIntervalMs ∧
      onLeaderStart now obj = syncTimestamp ⟨now, 0⟩ obj.lastSavePhysical) := by
  unfold onLeaderStart
  split
  next h => exact Or.inl ⟨h, rfl⟩
  next h => exact Or.inr ⟨h, rfl⟩

theorem onLeaderStart_moves (now : Int64) (obj : TsoObj) : (onLeaderStart now obj).moves = true := by
  rcases onLeaderStart_cases now obj with ⟨_, eq⟩ | ⟨_, eq⟩ <;> simp [eq]

theorem onLeaderStart_covered {now : Int64} {obj : TsoObj} (clock : ClockInRange now)
    (nonneg : 0 ≤ obj.lastSavePhysical.toInt) (lt : obj.lastSavePhysical.toInt < 2 ^ 62) :
    Covered (onLeaderStart now obj) := by
  obtain ⟨lo, hi⟩ := clock
  have hsub : (obj.lastSavePhysical - now).toInt = obj.lastSavePhysical.toInt - now.toInt :=
    toInt_sub_of_range (by omega) (by omega)
  have hinterval : updateTimestampIntervalMs.toInt = 50 := by decide
  rcases onLeaderStart_cases now obj with ⟨near, eq⟩ | ⟨far, eq⟩
  · have hguard : updateTimestampGuardMs.toInt = 1 := by decide
    have hsave : saveIntervalMs.toInt = 3000 := by decide
    rw [Int64.lt_iff_toInt_lt, hsub, hinterval] at near
    have hp := toInt_add_of_range (a := obj.lastSavePhysical) (b := updateTimestampGuardMs)
      (by omega) (by omega)
    have hs := toInt_add_of_range (a := now) (b := saveIntervalMs) (by omega) (by omega)
    rw [eq]
    intro _
    refine ⟨rfl, ?_, ?_⟩
    · simp only [syncTimestamp_physical, syncTimestamp_save]
      omega
    · simp only [syncTimestamp_save]
      omega
  · rw [Int64.lt_iff_toInt_lt, hsub, hinterval] at far
    rw [eq]
    intro _
    refine ⟨rfl, ?_, lt⟩
    simp only [syncTimestamp_physical, syncTimestamp_save]
    omega

theorem onLeaderStart_above {log : List (TsoEntry ι)} {term : Nat} {now : Int64} {obj : TsoObj}
    (lt : obj.lastSavePhysical.toInt < 2 ^ 62) (nonneg : 0 ≤ obj.lastSavePhysical.toInt)
    (bounded : ∀ e ∈ log, e.request.moves = true → e.term < term →
      e.request.physical ≤ obj.lastSavePhysical.toInt)
    (safe : ¬ obj.lastSavePhysical - now < updateTimestampIntervalMs →
      AboveEarlier log term now.toInt) :
    AboveEarlier log term (onLeaderStart now obj).physical := by
  rcases onLeaderStart_cases now obj with ⟨_, eq⟩ | ⟨far, eq⟩
  · have hguard : updateTimestampGuardMs.toInt = 1 := by decide
    have hp := toInt_add_of_range (a := obj.lastSavePhysical) (b := updateTimestampGuardMs)
      (by omega) (by omega)
    intro e he moves earlier
    have le := bounded e he moves earlier
    simp only [eq, syncTimestamp_physical]
    omega
  · rw [eq]
    exact safe far

theorem updateTimestamp_covered {isLeader : Bool} {now : Int64} {obj : TsoObj} {r : TsoRequest}
    (clock : ClockInRange now) (nonneg : 0 ≤ obj.lastSavePhysical.toInt)
    (lt : obj.lastSavePhysical.toInt < 2 ^ 62) (h : updateTimestamp isLeader now obj = some r) :
    Covered r := by
  obtain ⟨lo, hi⟩ := clock
  have hguard : updateTimestampGuardMs.toInt = 1 := by decide
  have hinterval : saveIntervalMs.toInt = 3000 := by decide
  obtain ⟨_, next, save, rfl, hnext, hsave⟩ := updateTimestamp_cases h
  have near : now.toInt ≤ next.toInt ∧ next.toInt ≤ now.toInt + 1 := by
    rcases hnext with ⟨rfl, _⟩ | ⟨rfl, _⟩
    · omega
    · rw [toInt_add_of_range (by omega) (by omega)]
      omega
  have hsub : (obj.lastSavePhysical - next).toInt = obj.lastSavePhysical.toInt - next.toInt :=
    toInt_sub_of_range (by omega) (by omega)
  intro _
  simp only [syncTimestamp_physical, syncTimestamp_save]
  rw [hsave]
  split
  next =>
    have hs := toInt_add_of_range (a := next) (b := saveIntervalMs) (by omega) (by omega)
    exact ⟨rfl, by omega, by omega⟩
  next hfar =>
    rw [Int64.le_iff_toInt_le, hsub] at hfar
    exact ⟨rfl, by omega, lt⟩

end EA
