import EA.Lib.Reach
import EA.TsoState

namespace EA

/-- What `process` does with a request before any raft round trip. -/
inductive ProcessOutcome where
  | answer (response : TsoResponse)
  | genTso
  | propose
deriving DecidableEq

def process (request : TsoRequest) (isLeader : Bool) (obj : TsoObj) : ProcessOutcome :=
  if request.opType = .opQueryTsoInfo then
    .answer { opType := request.opType, errcode := some .success, errmsg := "success",
              startTimestamp := some obj.currentTimestamp,
              savePhysical := some obj.lastSavePhysical }
  else if !isLeader then
    .answer { opType := request.opType, errcode := some .notLeader, errmsg := "not leader" }
  else if request.opType = .opGenTso then .genTso
  else .propose

/-- The early returns of `gen_tso`. -/
def genTsoCheck (count : Int64) (isHealty : Bool) : Option TsoResponse :=
  if count = 0 then
    some { opType := .opGenTso, errcode := some .inputParamError,
           errmsg := "tso count should be positive" }
  else if !isHealty then
    some { opType := .opGenTso, errcode := some .retryLater,
           errmsg := "timestamp not ok, retry later" }
  else none

def genTsoRetries : Nat := 50

def genTsoFailed : TsoResponse :=
  { opType := .opGenTso, errcode := some .execFail, errmsg := "gen tso failed" }

def genTsoGranted (start : TsoTimestamp) (count : Int64) : TsoResponse :=
  { opType := .opGenTso, errcode := some .success, startTimestamp := some start,
    count := some count }

inductive GenTsoPhase where
  /-- `process` has seen `_is_leader`; `gen_tso` has not been entered. -/
  | accepted
  | looping (left : Nat)
deriving DecidableEq

/-- A request inside `gen_tso`, with the term of the leadership it was accepted in. -/
structure GenTsoCall where
  term : Nat
  count : Int64
  phase : GenTsoPhase
deriving DecidableEq

inductive GenTsoOutcome where
  | answer (response : TsoResponse)
  | grant (start : TsoTimestamp) (obj : TsoObj)
  | again (left : Nat)

def genTsoStep (call : GenTsoCall) (isHealty : Bool) (obj : TsoObj) : GenTsoOutcome :=
  match call.phase with
  | .accepted =>
    match genTsoCheck call.count isHealty with
    | some response => .answer response
    | none => .again genTsoRetries
  | .looping left =>
    match genTsoAttempt call.count obj with
    | some (start, obj') => .grant start obj'
    | none => if left ≤ 1 then .answer genTsoFailed else .again (left - 1)

inductive StartPhase where
  | created | syncing | synced (ok : Bool) | storing | startingTimer
deriving DecidableEq

/-- The background closure of one `on_leader_start`. -/
structure StartClosure where
  term : Nat
  request : TsoRequest
  phase : StartPhase
deriving DecidableEq

inductive TsoRole where
  | follower
  | leading
  /-- Inside `on_leader_stop`, after the timer was stopped. -/
  | stopping
deriving DecidableEq

structure TsoNode where
  obj : TsoObj
  isLeader : Bool
  isHealty : Bool
  timerRunning : Bool
  update : Option TsoRequest
  closures : List StartClosure
  calls : List GenTsoCall
  role : TsoRole
  term : Nat
deriving DecidableEq

def TsoNode.init : TsoNode :=
  ⟨.init, false, true, false, none, [], [], .follower, 0⟩

def TsoNode.leaderStart (term : Nat) (now : Int64) (node : TsoNode) : TsoNode :=
  { node with
    role := .leading, term := term
    closures := node.closures ++ [⟨term, onLeaderStart now node.obj, .created⟩] }

def TsoNode.leaderStop (node : TsoNode) : TsoNode :=
  { node with isLeader := false, role := .follower }

/-- The statements of the closure around its raft round trip. -/
def TsoNode.runClosure (i : Nat) (node : TsoNode) : Option TsoNode := do
  let c ← node.closures[i]?
  let goto (phase : StartPhase) := node.closures.set i { c with phase := phase }
  match c.phase with
  | .created => some { node with closures := goto .syncing }
  | .syncing => none
  | .synced ok =>
    -- a failed sync only clears the health flag: the closure goes on
    some { node with isHealty := node.isHealty && ok, closures := goto .storing }
  | .storing => some { node with isLeader := true, closures := goto .startingTimer }
  | .startingTimer => some { node with timerRunning := true, closures := node.closures.eraseIdx i }

def TsoNode.syncReturn (i : Nat) (ok : Bool) (node : TsoNode) : Option TsoNode := do
  let c ← node.closures[i]?
  if c.phase = .syncing then
    some { node with closures := node.closures.set i { c with phase := .synced ok } }
  else none

def TsoNode.apply (request : TsoRequest) (node : TsoNode) : TsoNode × TsoResponse :=
  let applied := tsoApply request node.obj node.isHealty
  ({ node with obj := applied.1, isHealty := applied.2.1 }, applied.2.2)

def TsoNode.process (request : TsoRequest) (node : TsoNode) : TsoNode × Option TsoResponse :=
  match EA.process request node.isLeader node.obj with
  | .answer response => (node, some response)
  | .genTso =>
    ({ node with calls := node.calls ++ [⟨node.term, request.count, .accepted⟩] }, none)
  | .propose => (node, none)

def TsoNode.gen (i : Nat) (node : TsoNode) : Option (TsoNode × Option TsoResponse) := do
  let call ← node.calls[i]?
  match genTsoStep call node.isHealty node.obj with
  | .answer response => some ({ node with calls := node.calls.eraseIdx i }, some response)
  | .grant start obj =>
    some ({ node with obj := obj, calls := node.calls.eraseIdx i },
      some (genTsoGranted start call.count))
  | .again left =>
    some ({ node with calls := node.calls.set i { call with phase := .looping left } }, none)

inductive TsoNodeEvent where
  | leaderStart (term : Nat) (now : Int64)
  | stopTimer
  | leaderStop
  | runClosure (i : Nat)
  | syncReturn (i : Nat) (ok : Bool)
  | timer (now : Int64)
  | updateReturn
  | apply (request : TsoRequest)
  | request (request : TsoRequest)
  | gen (i : Nat)

/-- One step of the node, with the answer that a request gets in it. -/
def TsoNode.step (node : TsoNode) : TsoNodeEvent → Option (TsoNode × Option TsoResponse)
  | .leaderStart term now =>
    if node.role = .follower then some (node.leaderStart term now, none) else none
  | .stopTimer =>
    if node.role = .leading then
      some ({ node with timerRunning := false, role := .stopping }, none)
    else none
  | .leaderStop => if node.role = .stopping then some (node.leaderStop, none) else none
  | .runClosure i => (node.runClosure i).map fun n => (n, none)
  | .syncReturn i ok => (node.syncReturn i ok).map fun n => (n, none)
  | .timer now =>
    if node.timerRunning && node.update.isNone then
      some ({ node with update := updateTimestamp node.isLeader now node.obj }, none)
    else none
  | .updateReturn => if node.update.isSome then some ({ node with update := none }, none) else none
  | .apply request => some ((node.apply request).1, some (node.apply request).2)
  | .request request => some (node.process request)
  | .gen i => node.gen i

def TsoNode.next (node : TsoNode) (e : TsoNodeEvent) : Option TsoNode :=
  (node.step e).map Prod.fst

theorem process_genTso {request : TsoRequest} {isLeader : Bool} {obj : TsoObj}
    (h : process request isLeader obj = .genTso) : isLeader = true := by
  unfold process at h
  split at h
  next => simp at h
  next =>
    split at h
    next => simp at h
    next hl => simpa using hl

theorem process_answer {request : TsoRequest} {isLeader : Bool} {obj : TsoObj}
    {response : TsoResponse} (h : process request isLeader obj = .answer response)
    (gen : response.opType = .opGenTso) : response.errcode = some .notLeader := by
  unfold process at h
  split at h
  next hq =>
    cases ProcessOutcome.answer.inj h
    exact absurd (hq.symm.trans gen) (by decide)
  next =>
    split at h
    next => cases ProcessOutcome.answer.inj h; rfl
    next => split at h <;> simp at h

theorem tsoApply_gen {request : TsoRequest} {obj : TsoObj} {isHealty : Bool}
    (gen : (tsoApply request obj isHealty).2.2.opType = .opGenTso) :
    (tsoApply request obj isHealty).2.2.errcode = some .unknownReqType := by
  have op : (tsoApply request obj isHealty).2.2.opType = request.opType := by
    unfold tsoApply
    split
    next => unfold resetTso; split <;> [split; skip] <;> rfl
    next => unfold updateTso; split <;> rfl
    next => rfl
  simp [tsoApply, op.symm.trans gen]

theorem runClosure_cases {i : Nat} {node node' : TsoNode} (h : node.runClosure i = some node') :
    ∃ c, node.closures[i]? = some c ∧
      ((c.phase = .storing ∧ node'.isLeader = true) ∨ node'.isLeader = node.isLeader) ∧
      node'.obj = node.obj ∧ node'.calls = node.calls ∧ node'.role = node.role := by
  obtain ⟨c, hc, h⟩ := Option.bind_eq_some_iff.mp h
  refine ⟨c, hc, ?_⟩
  cases hp : c.phase with
  | created => simp only [hp] at h; cases Option.some.inj h; simp
  | syncing => simp [hp] at h
  | synced ok => simp only [hp] at h; cases Option.some.inj h; simp
  | storing => simp only [hp] at h; cases Option.some.inj h; simp
  | startingTimer => simp only [hp] at h; cases Option.some.inj h; simp

theorem runClosure_term {i : Nat} {node node' : TsoNode} (h : node.runClosure i = some node') :
    node'.term = node.term := by
  obtain ⟨c, hc, h⟩ := Option.bind_eq_some_iff.mp h
  dsimp only at h
  split at h
  all_goals first | (cases Option.some.inj h; rfl) | simp at h

/-- No closure stores `_is_leader = true` after `on_leader_stop`, and no request
is between the leader check of `process` and its answer when the node stops. -/
def StopsQuietly (node : TsoNode) : TsoNodeEvent → Prop
  | .runClosure i => ∀ c ∈ node.closures[i]?, c.phase = .storing → node.role ≠ .follower
  | .leaderStop => node.calls = []
  | _ => True

instance (node : TsoNode) (e : TsoNodeEvent) : Decidable (StopsQuietly node e) := by
  cases e <;> unfold StopsQuietly <;> infer_instance

structure DeposedInv (node : TsoNode) : Prop where
  flag : node.role = .follower → node.isLeader = false
  idle : node.role = .follower → node.calls = []

theorem deposedInv_of_same {node node' : TsoNode} (inv : DeposedInv node)
    (role : node'.role = node.role) (flag : node'.isLeader = node.isLeader)
    (calls : node'.calls = node.calls) : DeposedInv node' :=
  ⟨fun h => flag.trans (inv.flag (role.symm.trans h)),
    fun h => calls.trans (inv.idle (role.symm.trans h))⟩

theorem deposedInv_of_leading {node : TsoNode} (h : node.role ≠ .follower) : DeposedInv node :=
  ⟨fun hr => absurd hr h, fun hr => absurd hr h⟩

theorem gen_none {i : Nat} {node : TsoNode} (h : node.calls = []) : node.gen i = none := by
  simp [TsoNode.gen, h]

theorem gen_role {i : Nat} {node node' : TsoNode} {answer : Option TsoResponse}
    (h : node.gen i = some (node', answer)) : node'.role = node.role := by
  obtain ⟨call, _, h⟩ := Option.bind_eq_some_iff.mp h
  split at h
  all_goals
    cases Option.some.inj h
    rfl

theorem deposedInv_step {node node' : TsoNode} {e : TsoNodeEvent} {answer : Option TsoResponse}
    (inv : DeposedInv node) (quiet : StopsQuietly node e)
    (h : node.step e = some (node', answer)) : DeposedInv node' := by
  cases e with
  | leaderStart term now =>
    obtain ⟨_, h⟩ := Option.ite_none_right_eq_some.mp h
    cases h
    exact deposedInv_of_leading (by simp [TsoNode.leaderStart])
  | stopTimer =>
    obtain ⟨_, h⟩ := Option.ite_none_right_eq_some.mp h
    cases h
    exact deposedInv_of_leading (by simp)
  | leaderStop =>
    obtain ⟨_, h⟩ := Option.ite_none_right_eq_some.mp h
    cases h
    exact ⟨fun _ => rfl, fun _ => quiet⟩
  | runClosure i =>
    obtain ⟨n, hn, eq⟩ := Option.map_eq_some_iff.mp h
    cases eq
    obtain ⟨c, hc, flag, _, calls, role⟩ := runClosure_cases hn
    rcases flag with ⟨storing, _⟩ | flag
    · exact deposedInv_of_leading (role ▸ quiet c hc storing)
    · exact deposedInv_of_same inv role flag calls
  | syncReturn i ok =>
    obtain ⟨n, hn, eq⟩ := Option.map_eq_some_iff.mp h
    cases eq
    obtain ⟨c, _, hn⟩ := Option.bind_eq_some_iff.mp hn
    obtain ⟨_, hn⟩ := Option.ite_none_right_eq_some.mp hn
    cases hn
    exact deposedInv_of_same inv rfl rfl rfl
  | timer now =>
    obtain ⟨_, h⟩ := Option.ite_none_right_eq_some.mp h
    cases h
    exact deposedInv_of_same inv rfl rfl rfl
  | updateReturn =>
    obtain ⟨_, h⟩ := Option.ite_none_right_eq_some.mp h
    cases h
    exact deposedInv_of_same inv rfl rfl rfl
  | apply request =>
    cases Option.some.inj h
    exact deposedInv_of_same inv rfl rfl rfl
  | request request =>
    simp only [TsoNode.step, TsoNode.process] at h
    split at h
    next => cases Option.some.inj h; exact inv
    next hg =>
      cases Option.some.inj h
      refine deposedInv_of_leading fun deposed => ?_
      have off := inv.flag deposed
      rw [process_genTso hg] at off
      exact absurd off (by decide)
    next => cases Option.some.inj h; exact inv
  | gen i =>
    have role : node'.role = node.role := gen_role h
    refine deposedInv_of_leading fun deposed => ?_
    have idle := inv.idle (role.symm.trans deposed)
    rw [TsoNode.step, gen_none idle] at h
    simp at h

/-- A node that has been deposed refuses every `OP_GEN_TSO` request and takes
nothing from `_tso_obj`, in every run whose stops are quiet. -/
theorem deposed_grants_nothing {node : TsoNode}
    (h : Reach.From TsoNode.next StopsQuietly .init node) (deposed : node.role = .follower)
    {e : TsoNodeEvent} {node' : TsoNode} {answer : Option TsoResponse}
    (step : node.step e = some (node', answer)) :
    (∀ response, answer = some response → response.opType = .opGenTso →
      response.errcode ≠ some .success) ∧
      ((∀ request, e ≠ .apply request) → node'.obj = node.obj) := by
  have inv : DeposedInv node := by
    apply h.invariant
    · exact ⟨fun _ => rfl, fun _ => rfl⟩
    · intro s e t _ inv quiet hs
      obtain ⟨⟨n, a⟩, hn, eq⟩ := Option.map_eq_some_iff.mp hs
      cases eq
      exact deposedInv_step inv quiet hn
  cases e with
  | apply request =>
    cases Option.some.inj step
    refine ⟨?_, fun other => absurd rfl (other request)⟩
    intro response eq gen
    cases Option.some.inj eq
    have refused := tsoApply_gen (show (tsoApply request node.obj node.isHealty).2.2.opType = _
      from gen)
    simp only [TsoNode.apply, refused]
    decide
  | request request =>
    simp only [TsoNode.step, TsoNode.process] at step
    split at step
    next answered ha =>
      cases Option.some.inj step
      refine ⟨?_, fun _ => rfl⟩
      intro response eq gen
      cases Option.some.inj eq
      rw [process_answer ha gen]
      decide
    next hg =>
      have off := inv.flag deposed
      rw [process_genTso hg] at off
      exact absurd off (by decide)
    next => cases Option.some.inj step; simp
  | gen i => simp [TsoNode.step, gen_none (inv.idle deposed)] at step
  | runClosure i =>
    obtain ⟨n, hn, eq⟩ := Option.map_eq_some_iff.mp step
    cases eq
    obtain ⟨_, _, _, obj, _⟩ := runClosure_cases hn
    exact ⟨by simp, fun _ => obj⟩
  | syncReturn i ok =>
    obtain ⟨n, hn, eq⟩ := Option.map_eq_some_iff.mp step
    cases eq
    obtain ⟨c, _, hn⟩ := Option.bind_eq_some_iff.mp hn
    obtain ⟨_, hn⟩ := Option.ite_none_right_eq_some.mp hn
    cases hn
    exact ⟨by simp, fun _ => rfl⟩
  | leaderStart term now | stopTimer | leaderStop | timer now | updateReturn =>
    obtain ⟨_, step⟩ := Option.ite_none_right_eq_some.mp step
    cases step
    exact ⟨by simp, fun _ => rfl⟩

/-- A whole leadership that grants five timestamps and stops. -/
def quietTermEvents : List TsoNodeEvent :=
  [.leaderStart 1 1000, .runClosure 0, .apply (onLeaderStart 1000 .init), .syncReturn 0 true,
    .runClosure 0, .runClosure 0, .runClosure 0,
    .request { opType := .opGenTso, count := 5 }, .gen 0, .gen 0, .stopTimer, .leaderStop]

def genTsoNotLeader : TsoResponse :=
  { opType := .opGenTso, errcode := some .notLeader, errmsg := "not leader" }

theorem deposed_grants_nothing_after_quiet_term :
    (∀ response, some genTsoNotLeader = some response →
      response.opType = .opGenTso → response.errcode ≠ some .success) ∧
      ((∀ request, TsoNodeEvent.request { opType := .opGenTso, count := 1 } ≠ .apply request) →
        (⟨⟨1, 5⟩, 4000⟩ : TsoObj) = ⟨⟨1, 5⟩, 4000⟩) := by
  let node : TsoNode := { TsoNode.init with obj := ⟨⟨1, 5⟩, 4000⟩, term := 1 }
  have run : Reach.From TsoNode.next StopsQuietly .init node :=
    Reach.From.of_checked (show quietTermEvents.foldlM _ _ = some node by decide)
  exact deposed_grants_nothing run rfl
    (show node.step (.request { opType := .opGenTso, count := 1 }) = some (node, some genTsoNotLeader)
      by rfl)

/-- `on_leader_stop` overtakes the closure of `on_leader_start`: its sync has
succeeded and only the store of `_is_leader` is left. -/
def lateStoreEvents : List TsoNodeEvent :=
  [.leaderStart 1 1000, .runClosure 0, .apply (onLeaderStart 1000 .init), .syncReturn 0 true,
    .runClosure 0, .stopTimer, .leaderStop, .runClosure 0,
    .request { opType := .opGenTso, count := 1 }, .gen 0]

def lateStoreNode : TsoNode :=
  { TsoNode.init with
    obj := ⟨⟨1, 0⟩, 4000⟩, isLeader := true, role := .follower, term := 1
    closures := [⟨1, onLeaderStart 1000 .init, .startingTimer⟩]
    calls := [⟨1, 1, .looping 50⟩] }

theorem late_store_grants_deposed :
    ¬ ∀ (node : TsoNode), Reach.From TsoNode.next (fun _ _ => True) .init node →
      node.role = .follower → ∀ (e : TsoNodeEvent) (node' : TsoNode) (answer : Option TsoResponse),
      node.step e = some (node', answer) →
      (∀ response, answer = some response → response.opType = .opGenTso →
        response.errcode ≠ some .success) ∧
        ((∀ request, e ≠ .apply request) → node'.obj = node.obj) := by
  intro always
  have run : Reach.From TsoNode.next (fun _ _ => True) .init lateStoreNode :=
    Reach.From.of_foldlM (fun _ _ _ => trivial)
      (show lateStoreEvents.foldlM TsoNode.next .init = some lateStoreNode by decide)
  have granted : lateStoreNode.step (.gen 0) = some
      ({ lateStoreNode with obj := ⟨⟨1, 1⟩, 4000⟩, calls := [] },
        some (genTsoGranted ⟨1, 0⟩ 1)) := by decide
  exact (always _ run rfl _ _ _ granted).1 _ rfl rfl rfl

end EA
