import EA.DiscoveryMessages
import EA.Lib.Block

namespace EA

def updateTimestampIntervalMs : Int64 := 50
def updateTimestampGuardMs : Int64 := 1
def saveIntervalMs : Int64 := 3000
def maxLogical : Int64 := 262144

structure TsoTimestamp where
  physical : Int64
  logical : Int64
deriving DecidableEq, Repr

structure TsoObj where
  currentTimestamp : TsoTimestamp
  lastSavePhysical : Int64
deriving DecidableEq, Repr

/-- `TSOStateMachine::init`. -/
def TsoObj.init : TsoObj := ⟨⟨0, 0⟩, 0⟩

inductive TsoOp where
  | opGenTso | opQueryTsoInfo | opResetTso | opUpdateTso | other
deriving DecidableEq, Repr

structure TsoRequest where
  opType : TsoOp
  count : Int64 := 0
  currentTimestamp : Option TsoTimestamp := none
  savePhysical : Option Int64 := none
  force : Bool := false
deriving DecidableEq, Repr

structure TsoResponse where
  opType : TsoOp
  errcode : Option ErrCode := none
  errmsg : String := ""
  startTimestamp : Option TsoTimestamp := none
  count : Option Int64 := none
  savePhysical : Option Int64 := none
deriving DecidableEq, Repr

def TsoRequest.current (request : TsoRequest) : TsoTimestamp :=
  request.currentTimestamp.getD ⟨0, 0⟩

def TsoRequest.save (request : TsoRequest) : Int64 :=
  request.savePhysical.getD 0

/-- The fallback test that `update_tso` and `reset_tso` both make: physical
parts only, and equality passes. -/
def timeFallback (request : TsoRequest) (obj : TsoObj) : Bool :=
  request.save < obj.lastSavePhysical ||
    request.current.physical < obj.currentTimestamp.physical

def updateTso (request : TsoRequest) (obj : TsoObj) : TsoObj × TsoResponse :=
  if timeFallback request obj then
    (obj, { opType := request.opType, errcode := some .internalError,
            errmsg := "time can't fallback" })
  else
    (⟨request.current, request.save⟩,
      { opType := request.opType, errcode := some .success, errmsg := "SUCCESS" })

/-- The Boolean is `_is_healty`. Without both fields nothing is answered at all. -/
def resetTso (request : TsoRequest) (obj : TsoObj) (isHealty : Bool) :
    TsoObj × Bool × TsoResponse :=
  if request.currentTimestamp.isSome && request.savePhysical.isSome then
    if timeFallback request obj && !request.force then
      (obj, isHealty,
        { opType := request.opType, errcode := some .internalError,
          errmsg := "time can't fallback", startTimestamp := some obj.currentTimestamp,
          savePhysical := some obj.lastSavePhysical })
    else
      (⟨request.current, request.save⟩, true,
        { opType := request.opType, errcode := some .success, errmsg := "SUCCESS",
          startTimestamp := some request.current, savePhysical := some request.save })
  else (obj, isHealty, { opType := request.opType })

/-- One committed entry of `TSOStateMachine::on_apply`. -/
def tsoApply (request : TsoRequest) (obj : TsoObj) (isHealty : Bool) :
    TsoObj × Bool × TsoResponse :=
  match request.opType with
  | .opResetTso => resetTso request obj isHealty
  | .opUpdateTso => ((updateTso request obj).1, isHealty, (updateTso request obj).2)
  | _ => (obj, isHealty, { opType := request.opType, errcode := some .unknownReqType,
                           errmsg := "unsupport request type" })

/-- One pass of the loop of `gen_tso`, made under `_tso_mutex`. -/
def genTsoAttempt (count : Int64) (obj : TsoObj) : Option (TsoTimestamp × TsoObj) :=
  if obj.currentTimestamp.physical ≠ 0 then
    let newLogical := obj.currentTimestamp.logical + count
    if newLogical < maxLogical then
      some (obj.currentTimestamp,
        { obj with currentTimestamp := { obj.currentTimestamp with logical := newLogical } })
    else none
  else none

/-- The entry that `sync_timestamp` hands to raft. -/
def syncTimestamp (current : TsoTimestamp) (savePhysical : Int64) : TsoRequest :=
  { opType := .opUpdateTso, currentTimestamp := some current, savePhysical := some savePhysical }

/-- The entry one run of `update_timestamp` proposes, from its reading of the
clock and of `_tso_obj`. -/
def updateTimestamp (isLeader : Bool) (now : Int64) (obj : TsoObj) : Option TsoRequest :=
  if !isLeader then none
  else
    let delta := now - obj.currentTimestamp.physical
    let propose (next : Int64) : TsoRequest :=
      let save := if obj.lastSavePhysical - next ≤ updateTimestampGuardMs
        then next + saveIntervalMs else obj.lastSavePhysical
      syncTimestamp ⟨next, 0⟩ save
    if updateTimestampGuardMs < delta then some (propose now)
    else if maxLogical / 2 < obj.currentTimestamp.logical then
      some (propose (now + updateTimestampGuardMs))
    else none

/-- The entry `on_leader_start` computes before it starts its background closure. -/
def onLeaderStart (now : Int64) (obj : TsoObj) : TsoRequest :=
  if obj.lastSavePhysical - now < updateTimestampIntervalMs then
    syncTimestamp ⟨obj.lastSavePhysical + updateTimestampGuardMs, 0⟩ (now + saveIntervalMs)
  else syncTimestamp ⟨now, 0⟩ obj.lastSavePhysical

/-- `on_snapshot_save` keeps the persisted bound only. -/
def tsoSnapshot (obj : TsoObj) : Int64 := obj.lastSavePhysical

def loadTso (savePhysical : Int64) (obj : TsoObj) : TsoObj :=
  { obj with lastSavePhysical := savePhysical }

@[simp] theorem syncTimestamp_current (c : TsoTimestamp) (s : Int64) :
    (syncTimestamp c s).current = c := rfl

@[simp] theorem syncTimestamp_save (c : TsoTimestamp) (s : Int64) :
    (syncTimestamp c s).save = s := rfl

@[simp] theorem syncTimestamp_opType (c : TsoTimestamp) (s : Int64) :
    (syncTimestamp c s).opType = .opUpdateTso := rfl

theorem timeFallback_eq_false {request : TsoRequest} {obj : TsoObj} :
    timeFallback request obj = false ↔ obj.lastSavePhysical ≤ request.save ∧
      obj.currentTimestamp.physical ≤ request.current.physical := by
  simp [timeFallback, Int64.not_lt]

theorem updateTso_cases (request : TsoRequest) (obj : TsoObj) :
    (timeFallback request obj = true ∧ (updateTso request obj).1 = obj ∧
      (updateTso request obj).2.errcode = some .internalError) ∨
    (timeFallback request obj = false ∧
      (updateTso request obj).1 = ⟨request.current, request.save⟩ ∧
      (updateTso request obj).2.errcode = some .success) := by
  cases h : timeFallback request obj with
  | true => exact Or.inl ⟨rfl, by simp [updateTso, h], by simp [updateTso, h]⟩
  | false => exact Or.inr ⟨rfl, by simp [updateTso, h], by simp [updateTso, h]⟩

theorem genTsoAttempt_eq_some {count : Int64} {obj obj' : TsoObj} {t : TsoTimestamp} :
    genTsoAttempt count obj = some (t, obj') ↔
      obj.currentTimestamp.physical ≠ 0 ∧
      obj.currentTimestamp.logical + count < maxLogical ∧ t = obj.currentTimestamp ∧
      obj' = ⟨⟨obj.currentTimestamp.physical, obj.currentTimestamp.logical + count⟩,
        obj.lastSavePhysical⟩ := by
  unfold genTsoAttempt
  split
  next hp =>
    dsimp only
    split
    next hl => simp [hp, hl, eq_comm]
    next hl => simp [hl]
  next hp => simp [not_not.mp hp]

/-- What one timer run can propose: a strictly raised clock reading, or the
clock reading plus the guard once half of the logical range is used up. -/
theorem updateTimestamp_cases {isLeader : Bool} {now : Int64} {obj : TsoObj} {r : TsoRequest}
    (h : updateTimestamp isLeader now obj = some r) :
    isLeader = true ∧ ∃ next save, r = syncTimestamp ⟨next, 0⟩ save ∧
      ((next = now ∧ updateTimestampGuardMs < now - obj.currentTimestamp.physical) ∨
        (next = now + updateTimestampGuardMs ∧
          ¬ updateTimestampGuardMs < now - obj.currentTimestamp.physical ∧
          maxLogical / 2 < obj.currentTimestamp.logical)) ∧
      save = if obj.lastSavePhysical - next ≤ updateTimestampGuardMs
        then next + saveIntervalMs else obj.lastSavePhysical := by
  unfold updateTimestamp at h
  split at h
  next => simp at h
  next hl =>
    refine ⟨by simpa using hl, ?_⟩
    dsimp only at h
    split at h
    next hd => exact ⟨now, _, (Option.some.inj h).symm, Or.inl ⟨rfl, hd⟩, rfl⟩
    next hd =>
      split at h
      next hh => exact ⟨_, _, (Option.some.inj h).symm, Or.inr ⟨rfl, hd, hh⟩, rfl⟩
      next => simp at h

/-- The block of pairs that a successful `gen_tso` hands out. -/
def grantBlock (start : TsoTimestamp) (count : Int64) : Block Int :=
  ⟨start.physical.toInt, start.logical.toInt, count.toInt⟩

theorem toInt_add_of_range {a b : Int64} (lo : -2 ^ 63 ≤ a.toInt + b.toInt)
    (hi : a.toInt + b.toInt < 2 ^ 63) : (a + b).toInt = a.toInt + b.toInt := by
  rw [Int64.toInt_add]
  exact Int.bmod_eq_of_le (by omega) (by omega)

theorem toInt_sub_of_range {a b : Int64} (lo : -2 ^ 63 ≤ a.toInt - b.toInt)
    (hi : a.toInt - b.toInt < 2 ^ 63) : (a - b).toInt = a.toInt - b.toInt := by
  rw [Int64.toInt_sub]
  exact Int.bmod_eq_of_le (by omega) (by omega)

theorem toInt_add_of_lt {a b : Int64} (hb : 0 < b) (h : a.toInt + b.toInt < 2 ^ 63) :
    (a + b).toInt = a.toInt + b.toInt := by
  have ha := Int64.le_toInt a
  have hb' : 0 < b.toInt := by simpa [Int64.lt_iff_toInt_lt] using hb
  exact toInt_add_of_range (by omega) h

end EA
