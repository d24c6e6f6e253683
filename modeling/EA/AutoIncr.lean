import EA.DiscoveryMessages
import EA.Lib.Lockstep
import EA.Lib.Reach
import EA.Lib.Replay

namespace EA

inductive AutoIncrOp where
  | opAddIdForAutoIncrement | opDropIdForAutoIncrement | opGenIdForAutoIncrement
  | opUpdateForAutoIncrement | other
deriving DecidableEq

structure AutoIncrRequest where
  opType : AutoIncrOp
  servletId : Int64
  startId : Option UInt64 := none
  count : UInt64 := 0
  incrementId : Option UInt64 := none
  force : Option Bool := none
deriving DecidableEq

structure AutoIncrResponse where
  errcode : ErrCode
  errmsg : String
  startId : Option UInt64 := none
  endId : Option UInt64 := none
deriving DecidableEq

/-- `_auto_increment_map`: the next id of every servlet. -/
abbrev AutoIncrementMap := Table Int64 UInt64

def addServletId (request : AutoIncrRequest) (m : AutoIncrementMap) :
    AutoIncrementMap × AutoIncrResponse :=
  let startId := request.startId.getD 0
  match m[request.servletId]? with
  | some _ => (m, { errcode := .inputParamError, errmsg := "servlet id has exist" })
  | none => (m.insert request.servletId startId,
      { errcode := .success, errmsg := "SUCCESS", startId := some startId })

def dropServletId (request : AutoIncrRequest) (m : AutoIncrementMap) :
    AutoIncrementMap × AutoIncrResponse :=
  match m[request.servletId]? with
  | none => (m, { errcode := .inputParamError, errmsg := "servlet id not exist" })
  | some _ => (m.erase request.servletId, { errcode := .success, errmsg := "SUCCESS" })

/-- Where the next range starts: at the counter, or behind the hint. -/
def genStart (request : AutoIncrRequest) (counter : UInt64) : UInt64 :=
  match request.startId with
  | some startId => if counter < startId + 1 then startId + 1 else counter
  | none => counter

def genId (request : AutoIncrRequest) (m : AutoIncrementMap) :
    AutoIncrementMap × AutoIncrResponse :=
  match m[request.servletId]? with
  | none => (m, { errcode := .inputParamError, errmsg := "servlet has no auto increment" })
  | some counter =>
    let oldStartId := genStart request counter
    (m.insert request.servletId (oldStartId + request.count),
      { errcode := .success, errmsg := "SUCCESS", startId := some oldStartId,
        endId := some (oldStartId + request.count) })

def AutoIncrementMap.update (request : AutoIncrRequest) (m : AutoIncrementMap) :
    AutoIncrementMap × AutoIncrResponse :=
  match m[request.servletId]? with
  | none => (m, { errcode := .inputParamError, errmsg := "servlet has no auto increment" })
  | some counter =>
    match request.startId, request.incrementId with
    | none, none => (m, { errcode := .inputParamError,
                          errmsg := "star_id or increment_id all not exist" })
    | some _, some _ => (m, { errcode := .inputParamError,
                              errmsg := "star_id and increment_id all exist" })
    | some startId, none =>
      if startId + 1 < counter ∧ request.force.getD false = false then
        (m, { errcode := .inputParamError, errmsg := "not support rollback" })
      else
        (m.insert request.servletId (startId + 1),
          { errcode := .success, errmsg := "SUCCESS", startId := some (startId + 1) })
    | none, some incrementId =>
      (m.insert request.servletId (counter + incrementId),
        { errcode := .success, errmsg := "SUCCESS", startId := some (counter + incrementId) })

/-- One entry of `AutoIncrStateMachine::on_apply`. -/
def autoIncrApply (m : AutoIncrementMap) (request : AutoIncrRequest) :
    AutoIncrementMap × AutoIncrResponse :=
  match request.opType with
  | .opAddIdForAutoIncrement => addServletId request m
  | .opDropIdForAutoIncrement => dropServletId request m
  | .opGenIdForAutoIncrement => genId request m
  | .opUpdateForAutoIncrement => AutoIncrementMap.update request m
  | .other => (m, { errcode := .unknownReqType, errmsg := "unsupport request type" })

/-- The members of the object in `max_id.json`, as they are read back. -/
abbrev MaxIdJson := List (String × UInt64)

def servletIdString (id : Int64) : String := id.toInt.repr

def maxIdMember (e : Int64 × UInt64) : String × UInt64 := (servletIdString e.1, e.2)

/-- `save_auto_increment`. The hash map is walked in any order. -/
def Saves (m : AutoIncrementMap) (json : MaxIdJson) : Prop :=
  json.Perm (m.toList.map maxIdMember)

instance (m : AutoIncrementMap) (json : MaxIdJson) : Decidable (Saves m json) := by
  unfold Saves
  infer_instance

def loadMaxId (atoi : String → Option Int64) (m : AutoIncrementMap) (e : String × UInt64) :
    Option AutoIncrementMap :=
  (atoi e.1).map fun servletId => m.insert servletId e.2

/-- `parse_json_string` over a cleared map. -/
def parseJson (atoi : String → Option Int64) (json : MaxIdJson) : Option AutoIncrementMap :=
  json.foldlM (loadMaxId atoi) ∅

/-- A replica with the number of entries it has applied, its latest snapshot and that
snapshot's number, and the answers it gave, each with the number of its entry. -/
structure AutoIncrReplica where
  map : AutoIncrementMap := ∅
  applied : Nat := 0
  snapshot : Option (MaxIdJson × Nat) := none
  answers : List (Nat × AutoIncrResponse) := []

inductive AutoIncrEvent where
  /-- The next entry of the log. -/
  | apply
  | snapshotSave (json : MaxIdJson)
  /-- The latest snapshot is loaded, and the log is taken up after it. -/
  | snapshotLoad
  /-- A fresh process before it has loaded a snapshot. -/
  | restart
deriving DecidableEq

def AutoIncrReplica.step (atoi : String → Option Int64) (log : List AutoIncrRequest)
    (r : AutoIncrReplica) : AutoIncrEvent → Option AutoIncrReplica
  | .apply => (log[r.applied]?).map fun request =>
      { r with
        map := (autoIncrApply r.map request).1
        applied := r.applied + 1
        answers := r.answers ++ [(r.applied, (autoIncrApply r.map request).2)] }
  | .snapshotSave json =>
    if Saves r.map json then some { r with snapshot := some (json, r.applied) } else none
  | .snapshotLoad => do
    let (json, index) ← r.snapshot
    let map ← parseJson atoi json
    some { r with map := map, applied := index }
  | .restart => some { r with map := ∅, applied := 0 }

/-- The map that the first `n` entries of a log make. -/
def mapAt (log : List AutoIncrRequest) (n : Nat) : AutoIncrementMap :=
  Run.stateAt autoIncrApply ∅ log n

theorem mapAt_succ {log : List AutoIncrRequest} {n : Nat} {request : AutoIncrRequest}
    (h : log[n]? = some request) :
    mapAt log (n + 1) = (autoIncrApply (mapAt log n) request).1 := Run.stateAt_succ h

/-- A saved map is read back, in whatever order it was written. -/
theorem parseJson_eq {atoi : String → Option Int64}
    (inverts : ∀ id, atoi (servletIdString id) = some id) {m : AutoIncrementMap} {json : MaxIdJson}
    (saved : Saves m json) : parseJson atoi json = some m := by
  have distinct : Function.Injective maxIdMember := by
    intro a b eq
    obtain ⟨name, value⟩ := Prod.mk.inj eq
    have id : some a.1 = some b.1 := by rw [← inverts, ← inverts, name]
    exact Prod.ext (Option.some.inj id) value
  have members : json ∈ Set.range (List.map maxIdMember) := by
    rw [Set.range_list_map]
    intro e he
    obtain ⟨e', _, rfl⟩ := List.mem_map.mp ((List.Perm.mem_iff saved).mp he)
    exact ⟨e', rfl⟩
  obtain ⟨es, rfl⟩ := members
  have listed : ∀ e, e ∈ es ↔ m[e.1]? = some e.2 := by
    intro e
    rw [← List.mem_map_of_injective distinct, List.Perm.mem_iff saved,
      List.mem_map_of_injective distinct, Std.ExtTreeMap.mem_toList_iff_getElem?_eq_some]
  have reads : ∀ (m : AutoIncrementMap) e,
      loadMaxId atoi m (maxIdMember e) = some (m.insert e.1 e.2) := by
    intro m e
    rw [loadMaxId, maxIdMember, inverts]
    rfl
  have rebuilt : Table.insertAll Prod.fst Prod.snd es ∅ = m := by
    refine Table.insertAll_eq fun id counter => ?_
    constructor
    · intro found
      exact ⟨(id, counter), (listed _).mpr found, rfl, rfl⟩
    · rintro ⟨e, he, rfl, rfl⟩
      exact (listed e).mp he
  have loaded := Replay.foldlM_map reads es ∅
  rw [parseJson, loaded]
  exact congrArg some rebuilt

/-- A replica holds what its log makes, also in its snapshot, and has answered as the
log says. -/
structure FollowsLog (log : List AutoIncrRequest) (r : AutoIncrReplica) : Prop where
  map : r.map = mapAt log r.applied
  snapshot : ∀ json index, r.snapshot = some (json, index) → Saves (mapAt log index) json
  answers : ∀ index response, (index, response) ∈ r.answers → ∃ request,
    log[index]? = some request ∧ response = (autoIncrApply (mapAt log index) request).2

theorem FollowsLog.step {atoi : String → Option Int64}
    (inverts : ∀ id, atoi (servletIdString id) = some id) {log : List AutoIncrRequest}
    {r r' : AutoIncrReplica} (h : FollowsLog log r) {event : AutoIncrEvent}
    (step : r.step atoi log event = some r') : FollowsLog log r' := by
  cases event with
  | apply =>
    obtain ⟨request, next, rfl⟩ := Option.map_eq_some_iff.mp step
    refine ⟨?_, h.snapshot, ?_⟩
    · dsimp only
      rw [mapAt_succ next, h.map]
    · intro index response mem
      rcases List.mem_append.mp mem with old | new
      · exact h.answers index response old
      · obtain ⟨rfl, rfl⟩ := Prod.mk.inj (List.mem_singleton.mp new)
        exact ⟨request, next, by rw [h.map]⟩
  | snapshotSave json =>
    simp only [AutoIncrReplica.step] at step
    split at step
    next saved =>
      cases Option.some.inj step
      refine ⟨h.map, ?_, h.answers⟩
      intro json' index eq
      obtain ⟨rfl, rfl⟩ := Prod.mk.inj (Option.some.inj eq)
      rw [← h.map]
      exact saved
    next => simp at step
  | snapshotLoad =>
    obtain ⟨⟨json, index⟩, stored, step⟩ := Option.bind_eq_some_iff.mp step
    obtain ⟨map, parsed, step⟩ := Option.bind_eq_some_iff.mp step
    cases Option.some.inj step
    rw [parseJson_eq inverts (h.snapshot json index stored)] at parsed
    exact ⟨(Option.some.inj parsed).symm, h.snapshot, h.answers⟩
  | restart =>
    cases Option.some.inj step
    exact ⟨rfl, h.snapshot, h.answers⟩

local instance decidableForallSome {α : Type} (o : Option α) (P : α → Prop) [DecidablePred P] :
    Decidable (∀ a, o = some a → P a) :=
  decidable_of_iff (o.all (fun a => decide (P a)) = true) (by cases o <;> simp)

/-- The sum does not pass 2^64 - 1. -/
def Fits (a b : UInt64) : Prop := a.toNat + b.toNat < 2 ^ 64

theorem fits_iff (a b : UInt64) : Fits a b ↔ a ≤ a + b := by
  have ha := a.toNat_lt
  have hb := b.toNat_lt
  rw [Fits, UInt64.le_iff_toNat_le, UInt64.toNat_add]
  omega

instance (a b : UInt64) : Decidable (Fits a b) := decidable_of_iff' _ (fits_iff a b)

theorem Fits.toNat_add {a b : UInt64} (h : Fits a b) : (a + b).toNat = a.toNat + b.toNat := by
  rw [UInt64.toNat_add, Nat.mod_eq_of_lt h]

/-- An entry that neither drops its servlet nor forces the counter, and whose sums do
not pass 2^64 - 1. -/
@[mk_iff]
structure Undisturbing (counter : Option UInt64) (request : AutoIncrRequest) : Prop where
  keeps : request.opType ≠ .opDropIdForAutoIncrement
  unforced : request.opType = .opUpdateForAutoIncrement → request.force.getD false = false
  start : request.opType = .opGenIdForAutoIncrement ∨
    request.opType = .opUpdateForAutoIncrement → ∀ startId, request.startId = some startId →
      Fits startId 1
  gen : request.opType = .opGenIdForAutoIncrement → ∀ c, counter = some c →
    Fits (genStart request c) request.count
  increment : request.opType = .opUpdateForAutoIncrement → ∀ c, counter = some c →
    ∀ incrementId, request.incrementId = some incrementId → Fits c incrementId

instance (counter : Option UInt64) (request : AutoIncrRequest) :
    Decidable (Undisturbing counter request) :=
  decidable_of_iff' _ (undisturbing_iff counter request)

/-- The entry is about another servlet, or does not disturb this one's counter. -/
def Quiet (servletId : Int64) (m : AutoIncrementMap) (request : AutoIncrRequest) : Prop :=
  request.servletId = servletId → Undisturbing m[servletId]? request

instance (servletId : Int64) (m : AutoIncrementMap) (request : AutoIncrRequest) :
    Decidable (Quiet servletId m request) := by
  unfold Quiet
  infer_instance

/-- A hint that an entry carries as a bound for later ids. -/
def AutoIncrRequest.Hints (request : AutoIncrRequest) (startId : UInt64) : Prop :=
  (request.opType = .opGenIdForAutoIncrement ∨ request.opType = .opUpdateForAutoIncrement) ∧
    request.startId = some startId

theorem genStart_ge (request : AutoIncrRequest) (counter : UInt64) :
    counter ≤ genStart request counter := by
  unfold genStart
  split
  next startId _ =>
    split
    next lt => exact UInt64.le_of_lt lt
    next => exact UInt64.le_refl _
  next => exact UInt64.le_refl _

theorem genStart_gt_hint {request : AutoIncrRequest} {startId : UInt64} (counter : UInt64)
    (hint : request.startId = some startId) (fits : Fits startId 1) :
    startId.toNat < (genStart request counter).toNat := by
  have next : (startId + 1).toNat = startId.toNat + 1 := fits.toNat_add
  rw [genStart, hint]
  dsimp only
  split
  next => omega
  next ge =>
    have above := UInt64.le_iff_toNat_le.mp (UInt64.not_lt.mp ge)
    omega

/-- Everything that an entry can make of the counter of a registered servlet. -/
inductive CounterStep (counter : UInt64) (request : AutoIncrRequest) (m : AutoIncrementMap) :
    AutoIncrementMap × AutoIncrResponse → Prop
  | refused (errmsg : String) :
      CounterStep counter request m (m, { errcode := .inputParamError, errmsg := errmsg })
  | gen (op : request.opType = .opGenIdForAutoIncrement) :
      CounterStep counter request m
        (m.insert request.servletId (genStart request counter + request.count),
          { errcode := .success, errmsg := "SUCCESS", startId := some (genStart request counter),
            endId := some (genStart request counter + request.count) })
  | start (startId : UInt64) (op : request.opType = .opUpdateForAutoIncrement)
      (hint : request.startId = some startId)
      (ahead : counter ≤ startId + 1 ∨ request.force.getD false = true) :
      CounterStep counter request m
        (m.insert request.servletId (startId + 1),
          { errcode := .success, errmsg := "SUCCESS", startId := some (startId + 1) })
  | increment (incrementId : UInt64) (op : request.opType = .opUpdateForAutoIncrement)
      (silent : request.startId = none) (given : request.incrementId = some incrementId) :
      CounterStep counter request m
        (m.insert request.servletId (counter + incrementId),
          { errcode := .success, errmsg := "SUCCESS", startId := some (counter + incrementId) })
  | unknown (op : request.opType = .other) :
      CounterStep counter request m
        (m, { errcode := .unknownReqType, errmsg := "unsupport request type" })

theorem autoIncrApply_step {m : AutoIncrementMap} {request : AutoIncrRequest} {counter : UInt64}
    (known : m[request.servletId]? = some counter)
    (keeps : request.opType ≠ .opDropIdForAutoIncrement) :
    CounterStep counter request m (autoIncrApply m request) := by
  cases op : request.opType with
  | opAddIdForAutoIncrement =>
    simp only [autoIncrApply, op, addServletId, known]
    exact .refused _
  | opDropIdForAutoIncrement => exact absurd op keeps
  | opGenIdForAutoIncrement =>
    simp only [autoIncrApply, op, genId, known]
    exact .gen op
  | opUpdateForAutoIncrement =>
    simp only [autoIncrApply, op, AutoIncrementMap.update, known]
    split
    next => exact .refused _
    next => exact .refused _
    next startId hint silent =>
      split
      next => exact .refused _
      next passes =>
        refine .start startId op hint ?_
        by_cases behind : startId + 1 < counter
        · exact Or.inr (by simpa [behind] using passes)
        · exact Or.inl (UInt64.not_lt.mp behind)
    next incrementId silent given => exact .increment incrementId op silent given
  | other =>
    simp only [autoIncrApply, op]
    exact .unknown op

/-- An entry leaves the counters of other servlets. -/
theorem autoIncrApply_other {request : AutoIncrRequest} {servletId : Int64}
    (other : request.servletId ≠ servletId) (m : AutoIncrementMap) :
    (autoIncrApply m request).1[servletId]? = m[servletId]? := by
  unfold autoIncrApply
  split
  next =>
    unfold addServletId
    dsimp only
    split
    next => rfl
    next => exact Table.lookup_insert_ne m _ other
  next =>
    unfold dropServletId
    split
    next => rfl
    next => exact Table.lookup_erase_ne m other
  next =>
    unfold genId
    split
    next => rfl
    next => exact Table.lookup_insert_ne m _ other
  next =>
    unfold AutoIncrementMap.update
    split
    next => rfl
    next =>
      split
      next => rfl
      next => rfl
      next =>
        split
        next => rfl
        next => exact Table.lookup_insert_ne m _ other
      next => exact Table.lookup_insert_ne m _ other
  next => rfl

theorem counter_ascends {m : AutoIncrementMap} {request : AutoIncrRequest} {servletId : Int64}
    {counter : UInt64} (known : m[servletId]? = some counter)
    (quiet : Quiet servletId m request) :
    ∃ counter', (autoIncrApply m request).1[servletId]? = some counter' ∧ counter ≤ counter' := by
  by_cases own : request.servletId = servletId
  · have calm := quiet own
    subst servletId
    have step := autoIncrApply_step known calm.keeps
    generalize autoIncrApply m request = out at step
    cases step with
    | refused | unknown => exact ⟨counter, known, UInt64.le_refl _⟩
    | gen op =>
      have sum := (calm.gen op counter known).toNat_add
      have reached := UInt64.le_iff_toNat_le.mp (genStart_ge request counter)
      refine ⟨_, Table.lookup_insert_self m _ _, UInt64.le_iff_toNat_le.mpr ?_⟩
      omega
    | start startId op hint ahead =>
      refine ⟨_, Table.lookup_insert_self m _ _, ahead.resolve_right ?_⟩
      simp [calm.unforced op]
    | increment incrementId op _ given =>
      have sum := (calm.increment op counter known incrementId given).toNat_add
      refine ⟨_, Table.lookup_insert_self m _ _, UInt64.le_iff_toNat_le.mpr ?_⟩
      omega
  · rw [autoIncrApply_other own]
    exact ⟨counter, known, UInt64.le_refl _⟩

theorem counter_ascends_between {log : List AutoIncrRequest} {servletId : Int64} {i j : Nat}
    (le : i ≤ j) (inside : j ≤ log.length)
    (quiet : ∀ k request, i ≤ k → k < j → log[k]? = some request →
      Quiet servletId (mapAt log k) request)
    {counter : UInt64} (known : (mapAt log i)[servletId]? = some counter) :
    ∃ counter', (mapAt log j)[servletId]? = some counter' ∧ counter ≤ counter' := by
  induction j, le using Nat.le_induction with
  | base => exact ⟨counter, known, UInt64.le_refl _⟩
  | succ j le ih =>
    obtain ⟨middle, here, below⟩ := ih (by omega) fun k request hk hj =>
      quiet k request hk (by omega)
    have next : log[j]? = some log[j] := List.getElem?_eq_getElem (by omega)
    obtain ⟨last, there, above⟩ := counter_ascends here (quiet j _ le (by omega) next)
    rw [← mapAt_succ next] at there
    exact ⟨last, there, UInt64.le_trans below above⟩

/-- The range [start_id, end_id) of an answer. -/
def AutoIncrResponse.ids (a : AutoIncrResponse) : Set UInt64 :=
  {id | ∃ startId endId, a.startId = some startId ∧ a.endId = some endId ∧
    startId ≤ id ∧ id < endId}

/-- The first range ends before the second one starts. -/
def AutoIncrResponse.Below (a b : AutoIncrResponse) : Prop :=
  ∃ endId startId, a.endId = some endId ∧ b.startId = some startId ∧ endId ≤ startId

theorem AutoIncrResponse.Below.disjoint {a b : AutoIncrResponse} (h : a.Below b) :
    Disjoint a.ids b.ids := by
  obtain ⟨endId, startId, stop, start, le⟩ := h
  refine Set.disjoint_left.mpr fun id ha hb => ?_
  obtain ⟨_, last, _, hlast, _, lt⟩ := ha
  obtain ⟨first, _, hfirst, _, ge, _⟩ := hb
  cases Option.some.inj (hlast.symm.trans stop)
  cases Option.some.inj (hfirst.symm.trans start)
  exact absurd (UInt64.lt_of_lt_of_le lt (UInt64.le_trans le ge)) (UInt64.lt_irrefl _)

/-- An accepted entry of a registered servlet leaves the counter behind its range and
behind its hint. -/
theorem counter_passes {m : AutoIncrementMap} {request : AutoIncrRequest}
    (calm : Undisturbing m[request.servletId]? request)
    (accepted : (autoIncrApply m request).2.errcode = .success)
    (moves : request.opType = .opGenIdForAutoIncrement ∨
      request.opType = .opUpdateForAutoIncrement) :
    ∃ counter, (autoIncrApply m request).1[request.servletId]? = some counter ∧
      (request.opType = .opGenIdForAutoIncrement →
        (autoIncrApply m request).2.endId = some counter) ∧
      ∀ startId, request.startId = some startId → startId < counter := by
  cases known : m[request.servletId]? with
  | none =>
    rcases moves with op | op
    · simp [autoIncrApply, op, genId, known] at accepted
    · simp [autoIncrApply, op, AutoIncrementMap.update, known] at accepted
  | some counter =>
    have fits := calm.start moves
    have step := autoIncrApply_step known calm.keeps
    generalize autoIncrApply m request = out at step accepted
    cases step with
    | refused => simp at accepted
    | unknown => simp at accepted
    | gen op =>
      have sum := (calm.gen op counter known).toNat_add
      refine ⟨_, Table.lookup_insert_self m _ _, fun _ => rfl, fun startId hint => ?_⟩
      have past := genStart_gt_hint counter hint (fits startId hint)
      exact UInt64.lt_iff_toNat_lt.mpr (by omega)
    | start startId op hint =>
      refine ⟨_, Table.lookup_insert_self m _ _, fun gen => by simp [op] at gen, ?_⟩
      intro startId' hint'
      cases Option.some.inj (hint.symm.trans hint')
      have next : (startId + 1).toNat = startId.toNat + 1 := (fits startId hint).toNat_add
      exact UInt64.lt_iff_toNat_lt.mpr (by omega)
    | increment incrementId op silent =>
      refine ⟨_, Table.lookup_insert_self m _ _, fun gen => by simp [op] at gen, ?_⟩
      intro startId hint
      simp [silent] at hint

theorem genId_starts {m : AutoIncrementMap} {request : AutoIncrRequest} {counter : UInt64}
    (op : request.opType = .opGenIdForAutoIncrement)
    (known : m[request.servletId]? = some counter) :
    ∃ startId, (autoIncrApply m request).2.startId = some startId ∧ counter ≤ startId := by
  simp only [autoIncrApply, op, genId, known]
  exact ⟨_, rfl, genStart_ge request counter⟩

/-- The ranges of one servlet ascend, over snapshots and restarts, and lie behind every
hint, as long as the servlet is not dropped or its counter forced or overflown. -/
theorem ranges_ascend {atoi : String → Option Int64}
    (inverts : ∀ id, atoi (servletIdString id) = some id) {log : List AutoIncrRequest}
    {r : AutoIncrReplica}
    (run : Reach.From (AutoIncrReplica.step atoi log) (fun _ _ => True) {} r)
    {servletId : Int64} {i j : Nat} (lt : i < j)
    (quiet : ∀ k request, i ≤ k → k ≤ j → log[k]? = some request →
      Quiet servletId (mapAt log k) request)
    {first second : AutoIncrRequest} (atFirst : log[i]? = some first)
    (atSecond : log[j]? = some second)
    (own : first.servletId = servletId ∧ second.servletId = servletId)
    (gen : second.opType = .opGenIdForAutoIncrement)
    {a b : AutoIncrResponse} (answered : (i, a) ∈ r.answers ∧ (j, b) ∈ r.answers)
    (accepted : a.errcode = .success ∧ b.errcode = .success) :
    (first.opType = .opGenIdForAutoIncrement → a.Below b ∧ Disjoint a.ids b.ids) ∧
      ∀ startId, first.Hints startId → ∀ id ∈ b.ids, startId < id := by
  have follows : FollowsLog log r := by
    refine Reach.From.invariant ⟨rfl, by simp, by simp⟩ ?_ run
    intro s event t _ follows _ step
    exact follows.step inverts step
  obtain ⟨request, here, ha⟩ := follows.answers i a answered.1
  cases Option.some.inj (atFirst.symm.trans here)
  obtain ⟨request, here, hb⟩ := follows.answers j b answered.2
  cases Option.some.inj (atSecond.symm.trans here)
  obtain ⟨rfl, same⟩ := own
  have inside : j < log.length := (List.getElem?_eq_some_iff.mp atSecond).1
  have calm := quiet i first (by omega) (by omega) atFirst rfl
  -- whatever the first entry leaves, the second one starts at or behind it
  have climbs : ∀ counter, (autoIncrApply (mapAt log i) first).1[first.servletId]? = some counter →
      ∃ startId, b.startId = some startId ∧ counter ≤ startId := by
    intro counter left
    rw [← mapAt_succ atFirst] at left
    obtain ⟨later, known, le⟩ := counter_ascends_between (i := i + 1) (j := j) (by omega)
      (by omega) (fun k request hk hj => quiet k request (by omega) (by omega)) left
    rw [← same] at known
    obtain ⟨startId, start, ge⟩ := genId_starts gen known
    exact ⟨startId, by rw [hb, start], UInt64.le_trans le ge⟩
  rw [ha] at accepted ⊢
  constructor
  · intro op
    obtain ⟨counter, left, stop, _⟩ := counter_passes calm accepted.1 (Or.inl op)
    obtain ⟨startId, start, le⟩ := climbs counter left
    have below : AutoIncrResponse.Below (autoIncrApply (mapAt log i) first).2 b :=
      ⟨counter, startId, stop op, start, le⟩
    exact ⟨below, below.disjoint⟩
  · intro startId hints id mem
    obtain ⟨counter, left, _, passed⟩ := counter_passes calm accepted.1 hints.1
    obtain ⟨next, start, le⟩ := climbs counter left
    obtain ⟨begin', _, started, _, ge, _⟩ := mem
    cases Option.some.inj (start.symm.trans started)
    exact UInt64.lt_of_lt_of_le (passed startId hints.2) (UInt64.le_trans le ge)

/-- Two servlets, the first one with a hint, an increment and a last range. -/
def autoIncrLog : List AutoIncrRequest :=
  [{ opType := .opAddIdForAutoIncrement, servletId := 7, startId := some 10 },
    { opType := .opAddIdForAutoIncrement, servletId := -8 },
    { opType := .opGenIdForAutoIncrement, servletId := 7, startId := some 20, count := 5 },
    { opType := .opGenIdForAutoIncrement, servletId := -8, count := 3 },
    { opType := .opUpdateForAutoIncrement, servletId := 7, incrementId := some 4 },
    { opType := .opGenIdForAutoIncrement, servletId := 7, count := 2 }]

/-- `Atoi` on the strings that `to_string` makes. -/
def atoi (name : String) : Option Int64 := name.toInt?.map Int64.ofInt

theorem atoi_servletIdString (id : Int64) : atoi (servletIdString id) = some id := by
  rw [atoi, servletIdString, Int.toInt?_repr]
  simp

theorem reaches_apply {log : List AutoIncrRequest} {n : Nat} {snapshot : Option (MaxIdJson × Nat)}
    {answers : List (Nat × AutoIncrResponse)}
    (h : Reach.From (AutoIncrReplica.step atoi log) (fun _ _ => True) {}
      ⟨mapAt log n, n, snapshot, answers⟩) {request : AutoIncrRequest}
    (next : log[n]? = some request) :
    Reach.From (AutoIncrReplica.step atoi log) (fun _ _ => True) {} ⟨mapAt log (n + 1), n + 1,
      snapshot, answers ++ [(n, (autoIncrApply (mapAt log n) request).2)]⟩ := by
  refine h.next (e := .apply) trivial ?_
  simp only [AutoIncrReplica.step, next, Option.map_some, mapAt_succ next]

theorem reaches_restart {log : List AutoIncrRequest} {n : Nat}
    {snapshot : Option (MaxIdJson × Nat)} {answers : List (Nat × AutoIncrResponse)}
    (h : Reach.From (AutoIncrReplica.step atoi log) (fun _ _ => True) {}
      ⟨mapAt log n, n, snapshot, answers⟩) {json : MaxIdJson} (saved : Saves (mapAt log n) json) :
    Reach.From (AutoIncrReplica.step atoi log) (fun _ _ => True) {}
      ⟨mapAt log n, n, some (json, n), answers⟩ := by
  have step : AutoIncrReplica.step atoi log ⟨mapAt log n, n, snapshot, answers⟩
      (.snapshotSave json) = some ⟨mapAt log n, n, some (json, n), answers⟩ := if_pos saved
  have stop := (h.next trivial step).next (e := .restart) trivial rfl
  refine stop.next (e := .snapshotLoad) trivial ?_
  simp only [AutoIncrReplica.step, parseJson_eq atoi_servletIdString saved, Option.bind_eq_bind,
    Option.bind_some]

/-- The process restarts from a snapshot between two ranges of the first servlet. -/
theorem ranges_ascend_over_restart : ∃ a b : AutoIncrResponse,
    a.startId = some 21 ∧ a.endId = some 26 ∧ b.startId = some 30 ∧ b.endId = some 32 ∧
      Disjoint a.ids b.ids ∧ ∀ id ∈ b.ids, 20 < id := by
  have empty : Reach.From (AutoIncrReplica.step atoi autoIncrLog) (fun _ _ => True) {}
      ⟨mapAt autoIncrLog 0, 0, none, []⟩ := .start
  have before := reaches_apply (reaches_apply (reaches_apply (reaches_apply empty rfl) rfl) rfl) rfl
  have saved : Saves (mapAt autoIncrLog 4) [("7", 26), ("-8", 3)] := by decide +kernel
  have again := reaches_restart before saved
  have after := reaches_apply (reaches_apply again rfl) rfl
  have quiet : ∀ k request, 2 ≤ k → k ≤ 5 → autoIncrLog[k]? = some request →
      Quiet 7 (mapAt autoIncrLog k) request := by
    intro k request ge le here
    interval_cases k <;> cases here <;> decide
  let a : AutoIncrResponse :=
    { errcode := .success, errmsg := "SUCCESS", startId := some 21, endId := some 26 }
  let b : AutoIncrResponse :=
    { errcode := .success, errmsg := "SUCCESS", startId := some 30, endId := some 32 }
  obtain ⟨ranges, hints⟩ := ranges_ascend (i := 2) (j := 5) (a := a) (b := b)
    atoi_servletIdString after (by decide) quiet rfl rfl ⟨rfl, rfl⟩ rfl
    ⟨by decide, by decide⟩ ⟨rfl, rfl⟩
  exact ⟨a, b, rfl, rfl, rfl, rfl, (ranges rfl).2, hints 20 ⟨Or.inl rfl, rfl⟩⟩

end EA
