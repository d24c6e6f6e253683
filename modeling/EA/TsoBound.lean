import EA.Lib.Reach
import EA.TsoState

namespace EA

/-- The entries that a leader builds from what it sees of `_tso_obj`. -/
inductive Built (view : TsoObj) : TsoRequest → Prop
  | leaderStart (now : Int64) : Built view (onLeaderStart now view)
  | timer (isLeader : Bool) (now : Int64) (request : TsoRequest)
      (h : updateTimestamp isLeader now view = some request) : Built view request

/-- A replica with the states it went through, the latest first. -/
structure TsoHistory where
  obj : TsoObj
  past : List TsoObj

def TsoHistory.apply (h : TsoHistory) (request : TsoRequest) : Option TsoHistory :=
  some ⟨(updateTso request h.obj).1, h.obj :: h.past⟩

/-- A view that lags: its bound is that of a state the replica is or was in, or
less. Its time may be any. -/
def TsoHistory.Shows (h : TsoHistory) (view : TsoObj) : Prop :=
  ∃ earlier ∈ h.obj :: h.past, view.lastSavePhysical ≤ earlier.lastSavePhysical

/-- The entry was built from a lagging view. -/
def Stale (h : TsoHistory) (request : TsoRequest) : Prop :=
  ∃ view, h.Shows view ∧ Built view request

/-- Neither the time nor the bound of the first is ahead of the second's. -/
def TsoObj.Before (earlier later : TsoObj) : Prop :=
  earlier.currentTimestamp.physical ≤ later.currentTimestamp.physical ∧
    earlier.lastSavePhysical ≤ later.lastSavePhysical

theorem toInt_range (a : Int64) : -2 ^ 63 ≤ a.toInt ∧ a.toInt < 2 ^ 63 :=
  ⟨Int64.le_toInt a, Int64.toInt_lt a⟩

/-- A sum is exact or wraps around once. -/
theorem toInt_add_cases (a b : Int64) : (a + b).toInt = a.toInt + b.toInt ∨
    (a + b).toInt = a.toInt + b.toInt - 2 ^ 64 ∨ (a + b).toInt = a.toInt + b.toInt + 2 ^ 64 := by
  have ha := toInt_range a
  have hb := toInt_range b
  rw [Int64.toInt_add, Int.bmod_eq_emod]
  split <;> omega

theorem toInt_sub_cases (a b : Int64) : (a - b).toInt = a.toInt - b.toInt ∨
    (a - b).toInt = a.toInt - b.toInt - 2 ^ 64 ∨ (a - b).toInt = a.toInt - b.toInt + 2 ^ 64 := by
  have ha := toInt_range a
  have hb := toInt_range b
  rw [Int64.toInt_sub, Int.bmod_eq_emod]
  split <;> omega

/-- The first entry of a leader stays below its bound where it is accepted. A sum that
wraps around makes an entry that falls back. -/
theorem onLeaderStart_below {now : Int64} {view obj : TsoObj}
    (time : 0 ≤ obj.currentTimestamp.physical) (bound : 0 ≤ obj.lastSavePhysical)
    (lags : view.lastSavePhysical ≤ obj.lastSavePhysical)
    (ahead : obj.lastSavePhysical ≤ (onLeaderStart now view).save ∧
      obj.currentTimestamp.physical ≤ (onLeaderStart now view).current.physical) :
    (onLeaderStart now view).current.physical ≤ (onLeaderStart now view).save := by
  have started := Int64.le_iff_toInt_le.mp time
  have interval : updateTimestampIntervalMs.toInt = 50 := rfl
  have guard : updateTimestampGuardMs.toInt = 1 := rfl
  have save : saveIntervalMs.toInt = 3000 := rfl
  have difference := toInt_sub_cases view.lastSavePhysical now
  have next := toInt_add_cases view.lastSavePhysical updateTimestampGuardMs
  have saved := toInt_add_cases now saveIntervalMs
  have viewRange := toInt_range view.lastSavePhysical
  have nowRange := toInt_range now
  have differenceRange := toInt_range (view.lastSavePhysical - now)
  have nextRange := toInt_range (view.lastSavePhysical + updateTimestampGuardMs)
  have savedRange := toInt_range (now + saveIntervalMs)
  unfold onLeaderStart at ahead ⊢
  split at ahead
  next near =>
    rw [if_pos near]
    simp only [syncTimestamp_current, syncTimestamp_save, Int64.le_iff_toInt_le,
      Int64.lt_iff_toInt_lt, Int64.toInt_zero] at started bound lags ahead near ⊢
    omega
  next far =>
    rw [if_neg far]
    simp only [syncTimestamp_current, syncTimestamp_save, Int64.le_iff_toInt_le,
      Int64.lt_iff_toInt_lt, Int64.toInt_zero] at started bound lags ahead far ⊢
    omega

theorem updateTimestamp_below {isLeader : Bool} {now : Int64} {view obj : TsoObj}
    {request : TsoRequest} (h : updateTimestamp isLeader now view = some request)
    (time : 0 ≤ obj.currentTimestamp.physical) (bound : 0 ≤ obj.lastSavePhysical)
    (ahead : obj.lastSavePhysical ≤ request.save ∧
      obj.currentTimestamp.physical ≤ request.current.physical) :
    request.current.physical ≤ request.save := by
  obtain ⟨_, next, save, rfl, _, hsave⟩ := updateTimestamp_cases h
  have started := Int64.le_iff_toInt_le.mp time
  have guard : updateTimestampGuardMs.toInt = 1 := rfl
  have interval : saveIntervalMs.toInt = 3000 := rfl
  have difference := toInt_sub_cases view.lastSavePhysical next
  have saved := toInt_add_cases next saveIntervalMs
  have viewRange := toInt_range view.lastSavePhysical
  have nextRange := toInt_range next
  have differenceRange := toInt_range (view.lastSavePhysical - next)
  have savedRange := toInt_range (next + saveIntervalMs)
  split at hsave
  next near =>
    subst hsave
    simp only [syncTimestamp_current, syncTimestamp_save, Int64.le_iff_toInt_le,
      Int64.toInt_zero] at started bound ahead near ⊢
    omega
  next far =>
    subst hsave
    simp only [syncTimestamp_current, syncTimestamp_save, Int64.le_iff_toInt_le,
      Int64.toInt_zero] at started bound ahead far ⊢
    omega

/-- The time is not negative and not above the bound, and no earlier state is ahead. -/
structure Dominated (h : TsoHistory) : Prop where
  time : 0 ≤ h.obj.currentTimestamp.physical
  below : h.obj.currentTimestamp.physical ≤ h.obj.lastSavePhysical
  ascends : (h.obj :: h.past).Pairwise fun later earlier => earlier.Before later

theorem TsoObj.Before.refl (obj : TsoObj) : obj.Before obj := ⟨Int64.le_refl _, Int64.le_refl _⟩

theorem TsoObj.Before.trans {a b c : TsoObj} (h : a.Before b) (h' : b.Before c) : a.Before c :=
  ⟨Int64.le_trans h.1 h'.1, Int64.le_trans h.2 h'.2⟩

theorem Dominated.bound_le {h : TsoHistory} (dominated : Dominated h) {view : TsoObj}
    (seen : h.Shows view) : view.lastSavePhysical ≤ h.obj.lastSavePhysical := by
  obtain ⟨earlier, mem, lags⟩ := seen
  rcases List.mem_cons.mp mem with rfl | mem
  · exact lags
  · have before := (List.pairwise_cons.mp dominated.ascends).1 earlier mem
    exact Int64.le_trans lags before.2

theorem Dominated.apply {h h' : TsoHistory} (dominated : Dominated h) {request : TsoRequest}
    (stale : Stale h request) (step : h.apply request = some h') : Dominated h' := by
  obtain ⟨view, seen, built⟩ := stale
  have lags := dominated.bound_le seen
  have bound := Int64.le_trans dominated.time dominated.below
  cases Option.some.inj step
  have earlier := (List.pairwise_cons.mp dominated.ascends).1
  rcases updateTso_cases request h.obj with ⟨_, same, _⟩ | ⟨ahead, next, _⟩
  · refine ⟨?_, ?_, ?_⟩
    · rw [same]
      exact dominated.time
    · rw [same]
      exact dominated.below
    · rw [same]
      refine List.pairwise_cons.mpr ⟨?_, dominated.ascends⟩
      intro e he
      rcases List.mem_cons.mp he with rfl | he
      · exact .refl _
      · exact earlier e he
  · obtain ⟨saved, raised⟩ := timeFallback_eq_false.mp ahead
    have below : request.current.physical ≤ request.save := by
      cases built with
      | leaderStart now => exact onLeaderStart_below dominated.time bound lags ⟨saved, raised⟩
      | timer isLeader now request timed =>
        exact updateTimestamp_below timed dominated.time bound ⟨saved, raised⟩
    have before : h.obj.Before ⟨request.current, request.save⟩ := ⟨raised, saved⟩
    refine ⟨?_, ?_, ?_⟩
    · rw [next]
      exact Int64.le_trans dominated.time raised
    · rw [next]
      exact below
    · rw [next]
      refine List.pairwise_cons.mpr ⟨?_, dominated.ascends⟩
      intro e he
      rcases List.mem_cons.mp he with rfl | he
      · exact before
      · exact (earlier e he).trans before

/-- From time zero and a loaded bound on, the time never passes the bound and neither
goes back, whatever views the entries were built from. -/
theorem bound_dominates {loaded : Int64} (positive : 0 ≤ loaded) {h : TsoHistory}
    (run : Reach.From TsoHistory.apply Stale ⟨loadTso loaded TsoObj.init, []⟩ h) :
    h.obj.currentTimestamp.physical ≤ h.obj.lastSavePhysical ∧
      (h.obj :: h.past).Pairwise fun later earlier => earlier.Before later := by
  have start : Dominated ⟨loadTso loaded TsoObj.init, []⟩ :=
    ⟨Int64.le_refl _, positive, List.pairwise_singleton _ _⟩
  have dominated : Dominated h := by
    refine Reach.From.invariant start ?_ run
    intro s request t _ dominated stale step
    exact dominated.apply stale step
  exact ⟨dominated.below, dominated.ascends⟩

/-- Two leaders built an entry on the same loaded bound; the second one falls back. -/
theorem bound_dominates_rivals : ∃ h : TsoHistory,
    h.obj = ⟨⟨5001, 0⟩, 8500⟩ ∧ h.obj.currentTimestamp.physical ≤ h.obj.lastSavePhysical ∧
      (h.obj :: h.past).Pairwise fun later earlier => earlier.Before later := by
  let view : TsoObj := loadTso 5000 TsoObj.init
  have first : Reach.From TsoHistory.apply Stale ⟨view, []⟩ _ :=
    Reach.From.start.next ⟨view, ⟨view, by simp, Int64.le_refl _⟩, .leaderStart 5500⟩ rfl
  have second : Reach.From TsoHistory.apply Stale ⟨view, []⟩ _ :=
    first.next ⟨view, ⟨view, by simp, Int64.le_refl _⟩, .leaderStart 5400⟩ rfl
  exact ⟨_, by decide, bound_dominates (by decide) second⟩

end EA
