import EA.DiscoveryServer

namespace EA

variable {serialises : MetaValue → Bool}

/-- Whatever becomes of the plan, its reply does not complain of the operation. -/
def Plan.KnowsType {σ : Type} : Plan σ → Prop
  | .refuse errcode _ _ => errcode ≠ .unknownReqType
  | .write .. => True

theorem Plan.KnowsType.run {σ : Type} {p : Plan σ} (h : p.KnowsType) (dbOk : Bool) (db : MetaDb) :
    (p.run serialises dbOk db).2.errcode ≠ .unknownReqType := by
  cases p with
  | refuse => exact h
  | write value batch dbError touched memory =>
    simp only [Plan.run]
    split
    next => simp
    next => split <;> simp

theorem onApply_knowsType {request : DiscoveryManagerRequest} (known : request.opType ≠ .other)
    (env : Env) (r : Replica) : (onApply serialises request env r).2.errcode ≠ .unknownReqType := by
  have applied := onApply_applied serialises request env r
  generalize onApply serialises request env r = out at applied
  cases applied with
  | schema p plan =>
    have knows : p.KnowsType := by cases schemaPlan_step plan <;> simp [Plan.KnowsType]
    exact knows.run env.dbOk r.db
  | users p plan =>
    have knows : p.KnowsType := by cases usersPlan_step plan <;> simp [Plan.KnowsType]
    exact knows.run env.dbOk r.db
  | instances p plan =>
    have knows : p.KnowsType := by cases instancesPlan_step plan <;> simp [Plan.KnowsType]
    exact knows.run env.dbOk r.db
  | configs p plan =>
    have knows : p.KnowsType := by
      unfold configsPlan createConfig removeConfig removeConfigAll at plan
      dsimp only at plan
      repeat' split at plan
      all_goals cases plan
      all_goals simp [Plan.KnowsType]
    exact knows.run env.dbOk r.db
  | unknown op => exact absurd op known

theorem autoIncrApply_knowsType {request : AutoIncrRequest} (known : request.opType ≠ .other)
    (m : AutoIncrementMap) : (autoIncrApply m request).2.errcode ≠ .unknownReqType := by
  unfold autoIncrApply addServletId dropServletId genId AutoIncrementMap.update
  dsimp only
  repeat' split
  all_goals simp_all

namespace DiscoveryServer

theorem processUserPrivilege_error {request : ManagerRequest} {response : ManagerResponse}
    (h : processUserPrivilege request = .error response) : response.errcode = .inputParamError := by
  unfold processUserPrivilege errorSetResponse at h
  repeat' split at h
  all_goals cases h
  all_goals rfl

theorem processSchemaInfo_error {isLeader : Bool} {leaderId : Bytes} {request : ManagerRequest}
    {response : ManagerResponse} (h : processSchemaInfo isLeader leaderId request = .error response) :
    response.errcode = .notLeader ∨ response.errcode = .inputParamError := by
  unfold processSchemaInfo errorSetResponse at h
  split at h
  next =>
    cases h
    exact Or.inl rfl
  next =>
    right
    repeat' split at h
    all_goals cases h
    all_goals rfl

theorem processConfigInfo_error {isLeader : Bool} {leaderId : Bytes} {request : ManagerRequest}
    {response : ManagerResponse} (h : processConfigInfo isLeader leaderId request = .error response) :
    response.errcode = .notLeader ∨ response.errcode = .inputParamError := by
  unfold processConfigInfo errorSetResponse at h
  split at h
  next =>
    cases h
    exact Or.inl rfl
  next =>
    right
    repeat' split at h
    all_goals cases h
    all_goals rfl

/-- What refuses a request before it reaches the log. -/
inductive Refusal : ErrCode → Prop
  | haveNotInit : Refusal .haveNotInit
  | notLeader : Refusal .notLeader
  | inputParamError : Refusal .inputParamError

theorem discoveryManager_error {initSuccess isLeader : Bool} {leaderId : Bytes}
    {request : ManagerRequest} {response : ManagerResponse}
    (h : discoveryManager initSuccess isLeader leaderId request = .error response) :
    Refusal response.errcode := by
  have input : ∀ {code : ErrCode}, code = .notLeader ∨ code = .inputParamError → Refusal code := by
    rintro code (rfl | rfl)
    · exact .notLeader
    · exact .inputParamError
  unfold discoveryManager at h
  split at h
  next =>
    cases h
    exact .haveNotInit
  next =>
    split at h
    all_goals first
      | exact input (processSchemaInfo_error h)
      | exact input (processConfigInfo_error h)
      | exact input (Or.inr (processUserPrivilege_error h))
      | cases h
    all_goals exact .inputParamError

/-- An answer sends the response off once; a call that is let through keeps `done`. -/
theorem discoveryManagerRpc_eq (initSuccess isLeader : Bool) (leaderId : Bytes)
    (request : ManagerRequest) :
    discoveryManagerRpc initSuccess isLeader leaderId request true =
      match discoveryManager initSuccess isLeader leaderId request with
      | .error response => { response := response, sent := [.responded response] }
      | .ok group => { processed := [(group, true)] } := by
  unfold discoveryManagerRpc discoveryManager
  cases initSuccess with
  | false => rfl
  | true =>
    -- every branch gives `done` to a handler that has a guard of its own
    obtain ⟨op, _, _, _, _, _, _, _⟩ := request
    cases op with
    | manager m => cases m <;> rfl
    | autoIncrement m => cases m <;> rfl
    | opModifyResourceTag | opUpdateMainLogicalRoom => rfl

/-- So does a call of `process`, of which a task is left otherwise. -/
theorem process_eq (isLeader serialised : Bool) (leaderId : Bytes) :
    (∃ h : Handling, process isLeader serialised leaderId true = h ∧ h.processed = [] ∧
      h.tasks = [] ∧ ∃ a, h.sent = [a] ∧
        ∀ response, a = .responded response → response.errcode = .notLeader) ∨
    process isLeader serialised leaderId true = { tasks := [true] } := by
  unfold process
  cases isLeader with
  | false =>
    refine Or.inl ⟨_, rfl, rfl, rfl, _, rfl, fun response eq => ?_⟩
    cases eq
    rfl
  | true =>
    cases serialised with
    | false =>
      refine Or.inl ⟨_, rfl, rfl, rfl, _, rfl, fun response eq => ?_⟩
      cases eq
    | true => exact Or.inr rfl

theorem applyLogEntry_knowsType {request : ManagerRequest} {group : RaftGroup}
    (complete : request.Complete group) (env : Env) (m : Machines) :
    (applyLogEntry serialises env (request.entry group) m).2.errcode ≠ .unknownReqType := by
  cases group with
  | discovery =>
    refine onApply_knowsType ?_ env m.discovery
    intro other
    have known : request.opType.known = .other := other
    simp [ManagerRequest.Complete, known] at complete
  | autoIncr =>
    have known : request.opType.knownAutoIncr ≠ .other := complete
    exact autoIncrApply_knowsType known m.counters

/-- The response that a closure carries away from `on_apply`. -/
def ManagerRequest.respond (request : ManagerRequest) (response : ManagerResponse) :
    ManagerResponse :=
  { response with opType := some request.opType }

/-- The RPCs whose entries were applied under their own closures. -/
def ownRpcs (log : List LogItem) : List Nat :=
  log.filterMap fun
    | .applied closure _ _ => closure
    | .snapshotLoaded _ => none

/-- What holds of a server whatever its RPCs, its raft groups and its disk do. -/
structure Served (serialises : MetaValue → Bool) (s : Server) : Prop where
  once : (s.opened.map OpenRpc.rpc ++ s.answers.map Prod.fst).Perm (s.rpcs.map Prod.fst)
  distinct : (s.rpcs.map Prod.fst).Nodup
  asked : ∀ call ∈ s.opened, (call.rpc, call.request) ∈ s.rpcs ∧ call.request.Complete call.group
  held : ∀ call ∈ s.opened, call.done = true
  replayed : s.machines = replay serialises s.log
  owned : ∀ (later before : List LogItem) (rpc : Nat) (entry : LogEntry) (env : Env),
    s.log = later ++ .applied (some rpc) entry env :: before →
      ∃ request group, (rpc, request) ∈ s.rpcs ∧ request.Complete group ∧
        entry = request.entry group ∧ (rpc, .responded (request.respond
          (applyLogEntry serialises env entry (replay serialises before)).2)) ∈ s.answers
  ownedOnce : (ownRpcs s.log).Nodup
  accepted : ∀ (rpc : Nat) (response : ManagerResponse), (rpc, .responded response) ∈ s.answers →
    Refusal response.errcode ∨ rpc ∈ ownRpcs s.log

theorem served_empty : Served serialises {} where
  once := .nil
  distinct := .nil
  asked := by simp
  held := by simp
  replayed := rfl
  owned := by simp
  ownedOnce := .nil
  accepted := by simp

theorem mem_ownRpcs {log : List LogItem} {rpc : Nat} :
    rpc ∈ ownRpcs log ↔ ∃ later before entry env,
      log = later ++ .applied (some rpc) entry env :: before := by
  rw [ownRpcs, List.mem_filterMap]
  constructor
  · rintro ⟨item, mem, own⟩
    obtain ⟨later, before, split⟩ := List.append_of_mem mem
    cases item with
    | snapshotLoaded => simp at own
    | applied closure entry env =>
      have here : closure = some rpc := own
      subst here
      exact ⟨later, before, entry, env, split⟩
  · rintro ⟨later, before, entry, env, rfl⟩
    exact ⟨.applied (some rpc) entry env, by simp, rfl⟩

theorem ownRpcs_cons_other {item : LogItem} (other : ownRpcs [item] = []) (log : List LogItem) :
    ownRpcs (item :: log) = ownRpcs log := by
  have both : ownRpcs (item :: log) = ownRpcs [item] ++ ownRpcs log :=
    List.filterMap_append (l := [item])
  rw [both, other, List.nil_append]

namespace Served

variable {s : Server}

theorem not_answered (h : Served serialises s) {call : OpenRpc} (mem : call ∈ s.opened) :
    call.rpc ∉ s.answers.map Prod.fst := by
  intro answered
  have disjoint := (List.nodup_append.mp (h.once.nodup_iff.mpr h.distinct)).2.2
  exact disjoint _ (List.mem_map_of_mem mem) _ answered rfl

theorem own_answered (h : Served serialises s) {rpc : Nat} (own : rpc ∈ ownRpcs s.log) :
    rpc ∈ s.answers.map Prod.fst := by
  obtain ⟨later, before, entry, env, split⟩ := mem_ownRpcs.mp own
  obtain ⟨_, _, _, _, _, answer⟩ := h.owned later before rpc entry env split
  exact List.mem_map_of_mem answer

theorem find_some {rpc : Nat} {proposed : Bool} {call : OpenRpc}
    (found : s.find rpc proposed = some call) : call ∈ s.opened ∧ call.rpc = rpc := by
  have here := List.find?_some found
  exact ⟨List.mem_of_find?_eq_some found, by simpa using (of_decide_eq_true here).1⟩

/-- The closed RPC moves from the open ones to the answered ones. -/
theorem once_close (h : Served serialises s) {call : OpenRpc} (mem : call ∈ s.opened)
    (a : RpcAnswer) : ((s.close call).opened.map OpenRpc.rpc ++
      ((call.rpc, a) :: s.answers).map Prod.fst).Perm (s.rpcs.map Prod.fst) := by
  have open_ := (List.perm_cons_erase mem).map OpenRpc.rpc
  have moved : ((s.close call).opened.map OpenRpc.rpc ++
      call.rpc :: s.answers.map Prod.fst).Perm
      (s.opened.map OpenRpc.rpc ++ s.answers.map Prod.fst) :=
    List.perm_middle.trans (open_.symm.append_right _)
  exact moved.trans h.once

theorem asked_close (h : Served serialises s) (closed : OpenRpc) :
    ∀ call ∈ (s.close closed).opened,
      (call.rpc, call.request) ∈ s.rpcs ∧ call.request.Complete call.group :=
  fun call mem => h.asked call (List.mem_of_mem_erase mem)

theorem held_close (h : Served serialises s) (closed : OpenRpc) :
    ∀ call ∈ (s.close closed).opened, call.done = true :=
  fun call mem => h.held call (List.mem_of_mem_erase mem)

/-- An open RPC is answered without being applied. -/
theorem refuse (h : Served serialises s) {call : OpenRpc} (mem : call ∈ s.opened) {a : RpcAnswer}
    (refused : ∀ response, a = .responded response → Refusal response.errcode) :
    Served serialises { s.close call with answers := (call.rpc, a) :: s.answers } where
  once := h.once_close mem a
  distinct := h.distinct
  asked := h.asked_close call
  held := h.held_close call
  replayed := h.replayed
  owned later before rpc entry env split := by
    obtain ⟨request, group, known, complete, eq, answer⟩ := h.owned later before rpc entry env split
    exact ⟨request, group, known, complete, eq, List.mem_cons_of_mem _ answer⟩
  ownedOnce := h.ownedOnce
  accepted rpc response answer := by
    rcases List.mem_cons.mp answer with eq | old
    · exact Or.inl (refused response (Prod.mk.inj eq).2.symm)
    · exact h.accepted rpc response old

/-- The entry of an open RPC is applied, and its closure answers. -/
theorem applyOwn (h : Served serialises s) {call : OpenRpc} (mem : call ∈ s.opened) (env : Env) :
    Served serialises
      { s.close call with
        answers := (call.rpc, .responded (call.request.respond (applyLogEntry
          serialises env (call.request.entry call.group) s.machines).2)) :: s.answers
        machines := (applyLogEntry serialises env (call.request.entry call.group) s.machines).1
        log := .applied (some call.rpc) (call.request.entry call.group) env :: s.log } where
  once := h.once_close mem _
  distinct := h.distinct
  asked := h.asked_close call
  held := h.held_close call
  replayed := by rw [h.replayed, replay]
  owned later before rpc entry env' split := by
    rcases List.append_eq_cons_iff.mp split.symm with ⟨_, here⟩ | ⟨later', _, split'⟩
    · obtain ⟨item, rfl⟩ := List.cons.inj here
      obtain ⟨own, rfl, rfl⟩ := LogItem.applied.inj item
      cases Option.some.inj own
      obtain ⟨known, complete⟩ := h.asked call mem
      refine ⟨call.request, call.group, known, complete, rfl, ?_⟩
      rw [← h.replayed]
      exact List.mem_cons_self
    · obtain ⟨request, group, known, complete, eq, answer⟩ :=
        h.owned later' before rpc entry env' split'
      exact ⟨request, group, known, complete, eq, List.mem_cons_of_mem _ answer⟩
  ownedOnce := by
    have fresh : call.rpc ∉ ownRpcs s.log := fun own => h.not_answered mem (h.own_answered own)
    exact List.nodup_cons.mpr ⟨fresh, h.ownedOnce⟩
  accepted rpc response answer := by
    rcases List.mem_cons.mp answer with eq | old
    · right
      rw [(Prod.mk.inj eq).1]
      exact List.mem_cons_self
    · exact (h.accepted rpc response old).imp_right (List.mem_cons_of_mem _)

/-- Something that no RPC waits for. -/
theorem applyOther (h : Served serialises s) {machines : Machines} {item : LogItem}
    (other : ownRpcs [item] = []) (replayed : machines = replay serialises (item :: s.log)) :
    Served serialises { s with machines := machines, log := item :: s.log } where
  once := h.once
  distinct := h.distinct
  asked := h.asked
  held := h.held
  replayed := replayed
  owned later before rpc entry env split := by
    rcases List.append_eq_cons_iff.mp split.symm with ⟨_, here⟩ | ⟨later', _, split'⟩
    · obtain ⟨item', rfl⟩ := List.cons.inj here
      rw [← item'] at other
      simp [ownRpcs] at other
    · exact h.owned later' before rpc entry env split'
  ownedOnce := by
    rw [ownRpcs_cons_other other]
    exact h.ownedOnce
  accepted rpc response answer := by
    rw [ownRpcs_cons_other other]
    exact h.accepted rpc response answer

/-- A new RPC is answered at once. -/
theorem turnAway (h : Served serialises s) {rpc : Nat} (fresh : rpc ∉ s.rpcs.map Prod.fst)
    {request : ManagerRequest} {response : ManagerResponse} (refused : Refusal response.errcode) :
    Served serialises { s with
      rpcs := (rpc, request) :: s.rpcs, answers := (rpc, .responded response) :: s.answers } where
  once := List.perm_middle.trans (h.once.cons rpc)
  distinct := List.nodup_cons.mpr ⟨fresh, h.distinct⟩
  asked call mem := by
    obtain ⟨known, complete⟩ := h.asked call mem
    exact ⟨List.mem_cons_of_mem _ known, complete⟩
  held := h.held
  replayed := h.replayed
  owned later before rpc entry env split := by
    obtain ⟨request, group, known, complete, eq, answer⟩ := h.owned later before rpc entry env split
    exact ⟨request, group, List.mem_cons_of_mem _ known, complete, eq,
      List.mem_cons_of_mem _ answer⟩
  ownedOnce := h.ownedOnce
  accepted rpc response answer := by
    rcases List.mem_cons.mp answer with eq | old
    · cases eq
      exact Or.inl refused
    · exact h.accepted rpc response old

/-- A new RPC passes the checks. -/
theorem letIn (h : Served serialises s) {rpc : Nat} (fresh : rpc ∉ s.rpcs.map Prod.fst)
    {request : ManagerRequest} {group : RaftGroup} (complete : request.Complete group) :
    Served serialises { s with
      rpcs := (rpc, request) :: s.rpcs
      opened := ⟨rpc, request, group, false, true⟩ :: s.opened } where
  once := h.once.cons rpc
  distinct := List.nodup_cons.mpr ⟨fresh, h.distinct⟩
  asked call mem := by
    rcases List.mem_cons.mp mem with rfl | old
    · exact ⟨List.mem_cons_self, complete⟩
    · obtain ⟨known, complete⟩ := h.asked call old
      exact ⟨List.mem_cons_of_mem _ known, complete⟩
  held call mem := by
    rcases List.mem_cons.mp mem with rfl | old
    · rfl
    · exact h.held call old
  replayed := h.replayed
  owned later before rpc entry env split := by
    obtain ⟨request, group, known, complete, eq, answer⟩ := h.owned later before rpc entry env split
    exact ⟨request, group, List.mem_cons_of_mem _ known, complete, eq, answer⟩
  ownedOnce := h.ownedOnce
  accepted := h.accepted

/-- A checked RPC is handed to raft. -/
theorem propose (h : Served serialises s) {call : OpenRpc} (mem : call ∈ s.opened) :
    Served serialises { s.close call with
      opened := ⟨call.rpc, call.request, call.group, true, true⟩ :: (s.close call).opened } where
  once := by
    have open_ := (List.perm_cons_erase mem).map OpenRpc.rpc
    exact (open_.symm.append_right _).trans h.once
  distinct := h.distinct
  asked other mem' := by
    rcases List.mem_cons.mp mem' with rfl | old
    · exact h.asked call mem
    · exact h.asked_close call other old
  held other mem' := by
    rcases List.mem_cons.mp mem' with rfl | old
    · rfl
    · exact h.held_close call other old
  replayed := h.replayed
  owned := h.owned
  ownedOnce := h.ownedOnce
  accepted := h.accepted

theorem step {s' : Server} (h : Served serialises s) {e : ServerEvent}
    (step : s.step serialises e = some s') : Served serialises s' := by
  cases e with
  | init | leaderStart group | leaderStop group =>
    cases Option.some.inj step
    exact ⟨h.once, h.distinct, h.asked, h.held, h.replayed, h.owned, h.ownedOnce, h.accepted⟩
  | discoveryManager rpc request leaderId =>
    simp only [Server.step, discoveryManagerRpc_eq] at step
    split at step
    next => cases step
    next fresh =>
      cases checks : discoveryManager s.initSuccess (s.isLeader .discovery) leaderId request with
      | error response =>
        rw [checks] at step
        cases Option.some.inj step
        exact h.turnAway fresh (discoveryManager_error checks)
      | ok group =>
        rw [checks] at step
        cases Option.some.inj step
        exact h.letIn fresh (discoveryManager_ok checks)
  | process rpc serialised leaderId =>
    obtain ⟨call, found, eq⟩ := Option.map_eq_some_iff.mp step
    obtain ⟨mem, rfl⟩ := find_some found
    rw [h.held call mem] at eq
    rcases process_eq (s.isLeader call.group) serialised leaderId with
      ⟨out, ran, processed, tasks, a, sent, refused⟩ | ran
    · rw [ran] at eq
      simp only [Server.handled, processed, tasks, sent] at eq
      subst eq
      refine h.refuse mem fun response here => ?_
      rw [refused response here]
      exact .notLeader
    · rw [ran] at eq
      subst eq
      exact h.propose mem
  | applyOwn rpc env =>
    obtain ⟨call, found, rfl⟩ := Option.map_eq_some_iff.mp step
    obtain ⟨mem, rfl⟩ := find_some found
    rw [h.held call mem]
    exact h.applyOwn mem env
  | applyOther entry env =>
    cases Option.some.inj step
    exact h.applyOther rfl (by rw [h.replayed, replay])
  | closureFailed rpc leaderId =>
    obtain ⟨call, found, rfl⟩ := Option.map_eq_some_iff.mp step
    obtain ⟨mem, rfl⟩ := find_some found
    rw [h.held call mem]
    refine h.refuse mem fun response here => ?_
    cases here
    exact .notLeader
  | snapshotLoad machines =>
    cases Option.some.inj step
    exact h.applyOther rfl rfl

end Served

/-- Every run of a server, whatever the other servers do. -/
abbrev ServerReachable (serialises : MetaValue → Bool) (s : Server) : Prop :=
  Reach.From (Server.step serialises) (fun _ _ => True) {} s

theorem reachable_served {s : Server} (run : ServerReachable serialises s) : Served serialises s :=
  Reach.From.invariant served_empty (fun _ _ _ _ h _ step => h.step step) run

theorem count_map {α : Type} (f : α → Nat) (l : List α) (n : Nat) :
    (l.map f).count n = (l.filter (f · = n)).length := by
  rw [List.count, List.countP_map, List.countP_eq_length_filter]
  rfl

/-- The `done` of an RPC that came in is run once, or it is still with one call of `process`
or one task: over any interleaving of checks, proposals, elections, applications and failed
closures no RPC is answered twice and none is lost. -/
theorem rpcs_answered_once {s : Server} (run : ServerReachable serialises s) (rpc : Nat) :
    (s.opened.filter fun call => call.rpc = rpc ∧ call.done = true).length +
        (s.answers.filter (·.1 = rpc)).length =
      if rpc ∈ s.rpcs.map Prod.fst then 1 else 0 := by
  have served := reachable_served run
  have counted := served.once.count_eq rpc
  have holders : (s.opened.filter fun call => call.rpc = rpc ∧ call.done = true) =
      s.opened.filter (·.rpc = rpc) := by
    apply List.filter_congr
    intro call mem
    simp [served.held call mem]
  rw [List.count_append, served.distinct.count, count_map, count_map] at counted
  rw [holders]
  exact counted

def createShop : ManagerRequest :=
  { opType := .manager .opCreateNamespace
    namespaceInfo := some { namespaceName := ByteString.ascii "shop" } }

/-- A namespace is created, a second request for it loses its leader, a third finds none. -/
def serverEvents : List ServerEvent :=
  [.init, .leaderStart .discovery, .discoveryManager 1 createShop [], .process 1 true [],
    .applyOwn 1 ⟨0, true⟩, .discoveryManager 2 createShop [], .process 2 true [],
    .leaderStop .discovery, .closureFailed 2 [], .discoveryManager 3 createShop []]

def serverAnswers : List (Nat × RpcAnswer) :=
  [(3, .responded (notLeader [])), (2, .responded { errcode := .notLeader, leader := some [] }),
    (1, .responded { errcode := .success, errmsg := "success",
                     opType := some (.manager .opCreateNamespace) })]

theorem server_runs : ∃ s, serverEvents.foldlM (Server.step fun _ => true) {} = some s ∧
    s.answers = serverAnswers ∧ ownRpcs s.log = [1] := by
  have run : (serverEvents.foldlM (Server.step fun _ => true) {}).map
      (fun s => (s.answers, ownRpcs s.log)) = some (serverAnswers, [1]) := by decide
  obtain ⟨s, reached, eq⟩ := Option.map_eq_some_iff.mp run
  exact ⟨s, reached, (Prod.mk.inj eq).1, (Prod.mk.inj eq).2⟩

theorem rpcs_answered_once_over_election : ∃ s : Server, s.answers = serverAnswers ∧
    (s.opened.filter fun call => call.rpc = 2 ∧ call.done = true).length +
        (s.answers.filter (·.1 = 2)).length =
      if 2 ∈ s.rpcs.map Prod.fst then 1 else 0 := by
  obtain ⟨s, reached, answers, _⟩ := server_runs
  exact ⟨s, answers, rpcs_answered_once (Reach.From.of_foldlM (fun _ _ _ => trivial) reached) 2⟩

/-- What an RPC is told is what the log makes true: an accepted request was applied under
its own closure, once, and every closure carries the answer that the state machine gave at
the entry's place in the log. No such answer complains of the operation. -/
theorem answers_match_log {s : Server} (run : ServerReachable serialises s) :
    s.machines = replay serialises s.log ∧ (ownRpcs s.log).Nodup ∧
      (∀ (rpc : Nat) (response : ManagerResponse), (rpc, .responded response) ∈ s.answers →
        response.errcode = .success → rpc ∈ ownRpcs s.log) ∧
      ∀ (later before : List LogItem) (rpc : Nat) (entry : LogEntry) (env : Env),
        s.log = later ++ .applied (some rpc) entry env :: before →
          ∃ request group, (rpc, request) ∈ s.rpcs ∧ entry = request.entry group ∧
            let response := request.respond
              (applyLogEntry serialises env entry (replay serialises before)).2
            (∀ a, (rpc, a) ∈ s.answers ↔ a = .responded response) ∧
              response.errcode ≠ .unknownReqType := by
  have served := reachable_served run
  refine ⟨served.replayed, served.ownedOnce, ?_, ?_⟩
  · intro rpc response answer success
    rcases served.accepted rpc response answer with refused | own
    · rw [success] at refused
      cases refused
    · exact own
  · intro later before rpc entry env split
    obtain ⟨request, group, known, complete, rfl, answer⟩ :=
      served.owned later before rpc entry env split
    refine ⟨request, group, known, rfl, fun a => ⟨fun other => ?_, ?_⟩, ?_⟩
    · have nodup := (List.nodup_append.mp (served.once.nodup_iff.mpr served.distinct)).2.1
      exact (Prod.mk.inj (List.inj_on_of_nodup_map nodup other answer rfl)).2
    · rintro rfl
      exact answer
    · exact applyLogEntry_knowsType complete env _

theorem answers_match_log_over_election : ∃ s : Server,
    s.machines = replay (fun _ => true) s.log ∧ ownRpcs s.log = [1] ∧
      ∀ (rpc : Nat) (response : ManagerResponse), (rpc, .responded response) ∈ serverAnswers →
        response.errcode = .success → rpc ∈ ownRpcs s.log := by
  obtain ⟨s, reached, answers, own⟩ := server_runs
  obtain ⟨replayed, _, accepted, _⟩ :=
    answers_match_log (Reach.From.of_foldlM (fun _ _ _ => trivial) reached)
  rw [answers] at accepted
  exact ⟨s, replayed, own, accepted⟩

end DiscoveryServer

end EA
