import EA.CounterService

namespace EA.DiscoveryServer

variable {ι : Type} {atoi : String → Option Int64}

/-- What holds of the service whatever its clients, its elections and its snapshots do. -/
structure CounterInv (s : CounterService ι) : Prop where
  cluster : s.cluster.KeepsUp
  calls : Service.Ordered ServiceCall.fields ManagerRequest.counted countedAfter
    s.clock s.cluster.log s.calls

theorem counterInv_init : CounterInv ({} : CounterService ι) where
  cluster _ := keepsUp_init []
  calls := Service.ordered_nil

section Steps

variable {s s' : CounterService ι}

theorem CounterService.find_mem {rpc : Nat} {call : ServiceCall ι} (found : s.find rpc = some call) :
    call ∈ s.calls := List.mem_of_find?_eq_some found

theorem CounterInv.refuse (h : CounterInv s) {call : ServiceCall ι} (mem : call ∈ s.calls)
    (a : RpcAnswer) : CounterInv (s.tick.setCall (call.finish s.clock (.refused a))) where
  cluster := h.cluster
  calls := h.calls.moveOn mem ⟨rfl, rfl, rfl, rfl⟩ (Or.inr ⟨rfl, rfl⟩)

variable [DecidableEq ι]

theorem count_keeps {clock : Nat} {i : ι} {node : AutoIncrReplica} {e : AutoIncrEvent}
    (call : ServiceCall ι) : ServiceCall.fields.Keeps call (call.count clock i node e) := by
  unfold ServiceCall.count
  split
  next => split <;> exact ⟨rfl, rfl, rfl, rfl⟩
  next => split <;> exact ⟨rfl, rfl, rfl, rfl⟩
  next => exact ⟨rfl, rfl, rfl, rfl⟩

/-- An RPC that ends when its entry is applied has the answer of the log before it. -/
theorem CounterInv.count (h : CounterInv s) (i : ι) (e : AutoIncrEvent) (call : ServiceCall ι) :
    let seen := call.count s.clock i (s.cluster.nodes i) e
    (seen.response = call.response ∧ seen.endedAt = call.endedAt) ∨
      (seen.endedAt = s.clock ∧ ∀ response, seen.response = some response →
        ∃ n, call.index = some n ∧ response =
          countedAfter (s.cluster.log.take n) call.request) := by
  intro seen
  unfold seen ServiceCall.count
  split
  next =>
    split
    next own =>
      refine Or.inr ⟨rfl, fun response ended => ⟨(s.cluster.nodes i).applied, own.2, ?_⟩⟩
      cases ended
      rw [countedAfter, mapAt_take, (h.cluster i).follows.map]
    next => exact Or.inl ⟨rfl, rfl⟩
  next =>
    split
    next => exact Or.inr ⟨rfl, by simp [ServiceCall.finish, ServiceCall.response]⟩
    next => exact Or.inl ⟨rfl, rfl⟩
  next => exact Or.inl ⟨rfl, rfl⟩

theorem CounterInv.process (h : CounterInv s) {rpc : Nat} {isLeader serialised : Bool}
    {leaderId : Bytes} (step : s.step atoi (.process rpc isLeader serialised leaderId) = some s') :
    CounterInv s' := by
  obtain ⟨call, found, step⟩ := Option.bind_eq_some_iff.mp step
  have mem := CounterService.find_mem found
  split at step
  next waiting _ =>
    split at step
    next =>
      cases step
      exact h.refuse mem _
    next =>
      split at step
      next =>
        cases step
        exact h.refuse mem _
      next =>
        cases step
        exact ⟨h.cluster, h.calls.moveOn mem ⟨rfl, rfl, rfl, rfl⟩ (Or.inl ⟨rfl, rfl⟩)⟩
  next => cases step

theorem CounterInv.step (inverts : ∀ id, atoi (servletIdString id) = some id) (h : CounterInv s)
    {e : CounterEvent ι} (step : s.step atoi e = some s') : CounterInv s' := by
  cases e with
  | discoveryManager rpc i request initSuccess isLeader leaderId =>
    simp only [CounterService.step] at step
    split at step
    next => cases step
    next fresh =>
      split at step
      next =>
        cases step
        exact ⟨h.cluster, h.calls.arrive fresh rfl rfl rfl⟩
      next =>
        cases step
        exact ⟨h.cluster, h.calls.arrive fresh rfl rfl rfl⟩
      next => cases step
  | process rpc isLeader serialised leaderId => exact h.process step
  | commit rpc =>
    obtain ⟨call, found, step⟩ := Option.bind_eq_some_iff.mp step
    split at step
    next pending =>
      obtain ⟨cluster, committed, rfl⟩ := Option.map_eq_some_iff.mp step
      have up := h.cluster.step inverts committed
      cases committed
      exact ⟨up, h.calls.commit (CounterService.find_mem found) pending.2
        { call with index := some s.cluster.log.length } rfl rfl rfl rfl rfl⟩
    next => cases step
  | closureFailed rpc leaderId =>
    obtain ⟨call, found, step⟩ := Option.bind_eq_some_iff.mp step
    split at step
    next =>
      cases step
      exact h.refuse (CounterService.find_mem found) _
    next => cases step
  | node i e =>
    obtain ⟨cluster, moved, rfl⟩ := Option.map_eq_some_iff.mp step
    refine ⟨h.cluster.step inverts moved, ?_⟩
    dsimp only
    rw [AutoIncrCluster.log_eq (by simp) moved]
    exact h.calls.update (fun call _ => count_keeps call) fun call _ => h.count i e call
  | install source target =>
    obtain ⟨cluster, moved, rfl⟩ := Option.map_eq_some_iff.mp step
    refine ⟨h.cluster.step inverts moved, ?_⟩
    have kept := h.calls.update (f := id) (fun _ _ => ⟨rfl, rfl, rfl, rfl⟩)
      fun _ _ => Or.inl ⟨rfl, rfl⟩
    rw [List.map_id] at kept
    dsimp only
    rw [AutoIncrCluster.log_eq (by simp) moved]
    exact kept

end Steps

section Ranges

variable {log : List AutoIncrRequest} {servletId : Int64} {i j : Nat}

/-- What an entry leaves in the counter is not passed back by a range behind it. -/
theorem range_starts_behind (lt : i < j)
    (quiet : ∀ k request, i ≤ k → k ≤ j → log[k]? = some request →
      Quiet servletId (mapAt log k) request)
    {second : AutoIncrRequest} (atSecond : log[j]? = some second)
    (same : second.servletId = servletId) (gen : second.opType = .opGenIdForAutoIncrement)
    {counter : UInt64} (left : (mapAt log (i + 1))[servletId]? = some counter) :
    ∃ startId, (autoIncrApply (mapAt log j) second).2.startId = some startId ∧
      counter ≤ startId := by
  have inside := (List.getElem?_eq_some_iff.mp atSecond).1
  obtain ⟨later, known, le⟩ := counter_ascends_between (i := i + 1) (j := j) (by omega)
    (by omega) (fun k request hk hj => quiet k request (by omega) (by omega)) left
  rw [← same] at known
  obtain ⟨startId, start, ge⟩ := genId_starts gen known
  exact ⟨startId, start, UInt64.le_trans le ge⟩

/-- A range behind an accepted entry lies behind its range and behind its hint. -/
theorem range_behind (lt : i < j)
    (quiet : ∀ k request, i ≤ k → k ≤ j → log[k]? = some request →
      Quiet servletId (mapAt log k) request)
    {first second : AutoIncrRequest} (atFirst : log[i]? = some first)
    (atSecond : log[j]? = some second)
    (own : first.servletId = servletId ∧ second.servletId = servletId)
    (gen : second.opType = .opGenIdForAutoIncrement)
    (accepted : (autoIncrApply (mapAt log i) first).2.errcode = .success) :
    (first.opType = .opGenIdForAutoIncrement →
      (autoIncrApply (mapAt log i) first).2.Below (autoIncrApply (mapAt log j) second).2) ∧
    ∀ startId, first.Hints startId → ∀ id ∈ (autoIncrApply (mapAt log j) second).2.ids,
      startId < id := by
  obtain ⟨rfl, same⟩ := own
  have calm := quiet i first (Nat.le_refl i) (Nat.le_of_lt lt) atFirst rfl
  have starts : ∀ {counter : UInt64},
      (autoIncrApply (mapAt log i) first).1[first.servletId]? = some counter →
        ∃ startId, (autoIncrApply (mapAt log j) second).2.startId = some startId ∧
          counter ≤ startId := by
    intro counter left
    rw [← mapAt_succ atFirst] at left
    exact range_starts_behind lt quiet atSecond same gen left
  constructor
  · intro op
    obtain ⟨counter, left, stop, _⟩ := counter_passes calm accepted (Or.inl op)
    obtain ⟨startId, start, le⟩ := starts left
    exact ⟨counter, startId, stop op, start, le⟩
  · intro startId hints id mem
    obtain ⟨counter, left, _, passed⟩ := counter_passes calm accepted hints.1
    obtain ⟨next, start, le⟩ := starts left
    obtain ⟨_, _, started, _, ge, _⟩ := mem
    cases Option.some.inj (start.symm.trans started)
    exact UInt64.lt_of_lt_of_le (passed startId hints.2) (UInt64.le_trans le ge)

end Ranges

/-- The part of a response that is the auto-increment machine's. -/
def ManagerResponse.counted (response : ManagerResponse) : AutoIncrResponse where
  errcode := response.errcode
  errmsg := response.errmsg
  startId := response.startId
  endId := response.endId

/-- The client of an RPC about the servlet was told of success. -/
structure ServiceCall.Accepted (call : ServiceCall ι) (servletId : Int64)
    (response : ManagerResponse) : Prop where
  servlet : call.request.counted.servletId = servletId
  answer : call.outcome = .applied response
  success : response.errcode = .success

/-- The RPC asked for a range. -/
def ServiceCall.Generates (call : ServiceCall ι) : Prop :=
  call.request.counted.opType = .opGenIdForAutoIncrement

/-- From the entry of one RPC to that of the other, in either order, the servlet is not dropped
and its counter is neither forced nor overflown. -/
def QuietBetween (log : List AutoIncrRequest) (servletId : Int64) (call call' : ServiceCall ι) :
    Prop :=
  ∀ n n', call.index = some n → call'.index = some n' → ∀ k request, min n n' ≤ k →
    k ≤ max n n' → log[k]? = some request → Quiet servletId (mapAt log k) request

theorem CounterInv.accepted {s : CounterService ι} (h : CounterInv s) {call : ServiceCall ι}
    (mem : call ∈ s.calls) {servletId : Int64} {response : ManagerResponse}
    (accepted : call.Accepted servletId response) :
    ∃ n, call.index = some n ∧ s.cluster.log[n]? = some call.request.counted ∧
      response.counted = (autoIncrApply (mapAt s.cluster.log n) call.request.counted).2 := by
  obtain ⟨n, here, placed, rfl⟩ :=
    h.calls.linearizes.1 call mem response (ServiceCall.response_eq_some.mpr accepted.answer)
  refine ⟨n, here, placed, ?_⟩
  dsimp only [countedAfter]
  rw [mapAt_take]
  rfl

/-- The later of two accepted entries lies behind the earlier one. -/
theorem CounterInv.behind {s : CounterService ι} (h : CounterInv s) {call call' : ServiceCall ι}
    (mem : call ∈ s.calls) (mem' : call' ∈ s.calls) {servletId : Int64}
    {response response' : ManagerResponse} (accepted : call.Accepted servletId response)
    (accepted' : call'.Accepted servletId response') (gen : call'.Generates)
    (quiet : QuietBetween s.cluster.log servletId call call') {n n' : Nat}
    (here : call.index = some n) (there : call'.index = some n') (lt : n < n') :
    (call.Generates → response.counted.Below response'.counted) ∧
      ∀ startId, call.request.counted.Hints startId → ∀ id ∈ response'.counted.ids,
        startId < id := by
  obtain ⟨m, here', placed, eq⟩ := h.accepted mem accepted
  cases here.symm.trans here'
  obtain ⟨m', there', placed', eq'⟩ := h.accepted mem' accepted'
  cases there.symm.trans there'
  have success : (autoIncrApply (mapAt s.cluster.log n) call.request.counted).2.errcode =
      .success := eq ▸ accepted.success
  rw [eq, eq']
  refine range_behind lt ?_ placed placed' ⟨accepted.servlet, accepted'.servlet⟩ gen success
  intro k request ge le
  exact quiet n n' here there k request (by omega) (by omega)

section Runs

variable [DecidableEq ι]

abbrev CounterReachable (atoi : String → Option Int64) (s : CounterService ι) : Prop :=
  Reach.From (CounterService.step atoi) (fun _ _ => True) {} s

theorem reachable_counterInv (inverts : ∀ id, atoi (servletIdString id) = some id)
    {s : CounterService ι} (run : CounterReachable atoi s) : CounterInv s :=
  Reach.From.invariant counterInv_init (fun _ _ _ _ h _ step => h.step inverts step) run

/-- Over every interleaving of clients, elections, crashes and snapshots: no id is given to two
clients, and a client whose RPC came in after another RPC was answered gets ids behind all that
the other one was given, and behind the hint it carried. -/
theorem ids_given_once (inverts : ∀ id, atoi (servletIdString id) = some id)
    {s : CounterService ι} (run : CounterReachable atoi s) {call call' : ServiceCall ι}
    (mem : call ∈ s.calls) (mem' : call' ∈ s.calls) {servletId : Int64}
    {response response' : ManagerResponse} (accepted : call.Accepted servletId response)
    (accepted' : call'.Accepted servletId response') (gen : call'.Generates)
    (quiet : QuietBetween s.cluster.log servletId call call') :
    (call.Generates → call ≠ call' → Disjoint response.counted.ids response'.counted.ids) ∧
      (call.endedAt < call'.arrivedAt →
        (call.Generates → response.counted.Below response'.counted) ∧
          ∀ startId, call.request.counted.Hints startId → ∀ id ∈ response'.counted.ids,
            startId < id) := by
  have inv := reachable_counterInv inverts run
  obtain ⟨n, here, _, _⟩ := inv.accepted mem accepted
  obtain ⟨n', there, _, _⟩ := inv.accepted mem' accepted'
  constructor
  · intro gen' other
    rcases Nat.lt_trichotomy n n' with lt | rfl | gt
    · exact ((inv.behind mem mem' accepted accepted' gen quiet here there lt).1 gen').disjoint
    · exact absurd (inv.calls.apart call mem call' mem' n here there) other
    · have quiet' : QuietBetween s.cluster.log servletId call' call := by
        intro m m' hm hm' k request ge le
        exact quiet m' m hm' hm k request (by omega) (by omega)
      exact ((inv.behind mem' mem accepted' accepted gen' quiet' there here gt).1
        gen).disjoint.symm
  · intro later
    have lt := inv.calls.ordered call mem call' mem' response
      (ServiceCall.response_eq_some.mpr accepted.answer) later n n' here there
    exact inv.behind mem mem' accepted accepted' gen quiet here there lt

end Runs

/-! Two clients of servlet 7, with a third one whose range is lost between them. -/

def countRequest (op : AutoIncrOp) (startId : Option UInt64) (count : UInt64) : ManagerRequest where
  opType := .autoIncrement op
  autoIncrement := { opType := .other, servletId := 7, startId := startId, count := count }

def counterEvents : List (CounterEvent Bool) :=
  [.discoveryManager 1 true (countRequest .opAddIdForAutoIncrement (some 10) 0) true true [],
    .process 1 true true [], .commit 1, .node true .apply,
    .discoveryManager 2 true (countRequest .opGenIdForAutoIncrement none 5) true true [],
    .process 2 true true [], .commit 2, .node true .apply,
    .discoveryManager 3 true (countRequest .opGenIdForAutoIncrement none 3) true true [],
    .process 3 true true [], .closureFailed 3 [], .commit 3, .node true .restart,
    .discoveryManager 4 false (countRequest .opGenIdForAutoIncrement none 2) true true [],
    .process 4 true true [], .commit 4, .node false .apply, .node false .apply,
    .node false .apply, .node false .apply]

def rangeAnswer (startId endId : UInt64) : ManagerResponse :=
  { errcode := .success, errmsg := "SUCCESS", startId := some startId, endId := some endId
    opType := some (.autoIncrement .opGenIdForAutoIncrement) }

def counterLog : List AutoIncrRequest :=
  [{ opType := .opAddIdForAutoIncrement, servletId := 7, startId := some 10 },
    { opType := .opGenIdForAutoIncrement, servletId := 7, count := 5 },
    { opType := .opGenIdForAutoIncrement, servletId := 7, count := 3 },
    { opType := .opGenIdForAutoIncrement, servletId := 7, count := 2 }]

theorem ids_given_once_over_crash : ∃ s : CounterService Bool, ∃ call ∈ s.calls, ∃ call' ∈ s.calls,
    call.outcome = .applied (rangeAnswer 10 15) ∧ call'.outcome = .applied (rangeAnswer 18 20) ∧
      Disjoint (rangeAnswer 10 15).counted.ids (rangeAnswer 18 20).counted.ids ∧
      (rangeAnswer 10 15).counted.Below (rangeAnswer 18 20).counted := by
  have run : ((counterEvents.foldlM (fun s e => if True then s.step EA.atoi e else none)
      {}).bind fun s : CounterService Bool => (s.find 2).bind fun call => (s.find 4).bind fun call' =>
        if s.cluster.log = counterLog ∧ call.endedAt < call'.arrivedAt ∧
          call.request = countRequest .opGenIdForAutoIncrement none 5 ∧
          call'.request = countRequest .opGenIdForAutoIncrement none 2 ∧
          call.response = some (rangeAnswer 10 15) ∧ call'.response = some (rangeAnswer 18 20)
        then some () else none) = some () := by decide
  obtain ⟨s, reached, run⟩ := Option.bind_eq_some_iff.mp run
  obtain ⟨call, found, run⟩ := Option.bind_eq_some_iff.mp run
  obtain ⟨call', found', run⟩ := Option.bind_eq_some_iff.mp run
  obtain ⟨⟨log, order, request, request', answer, answer'⟩, _⟩ := Option.ite_none_right_eq_some.mp run
  have mem := CounterService.find_mem found
  have mem' := CounterService.find_mem found'
  have outcome := ServiceCall.response_eq_some.mp answer
  have outcome' := ServiceCall.response_eq_some.mp answer'
  have accepted : call.Accepted 7 (rangeAnswer 10 15) := ⟨by rw [request]; rfl, outcome, rfl⟩
  have accepted' : call'.Accepted 7 (rangeAnswer 18 20) := ⟨by rw [request']; rfl, outcome', rfl⟩
  have gen : call.Generates := by
    unfold ServiceCall.Generates
    rw [request]
    rfl
  have gen' : call'.Generates := by
    unfold ServiceCall.Generates
    rw [request']
    rfl
  have quiet : QuietBetween s.cluster.log 7 call call' := by
    intro n n' _ _ k request _ _ here
    rw [log] at here ⊢
    have within := (List.getElem?_eq_some_iff.mp here).1
    have short : k < 4 := within
    interval_cases k <;> cases here <;> decide
  have other : call ≠ call' := by
    rintro rfl
    rw [answer] at answer'
    exact absurd answer' (by decide)
  obtain ⟨apart, later⟩ := ids_given_once atoi_servletIdString (Reach.From.of_checked reached)
    mem mem' accepted accepted' gen' quiet
  exact ⟨s, call, mem, call', mem', outcome, outcome', apart gen other, (later order).1 gen⟩

end EA.DiscoveryServer
