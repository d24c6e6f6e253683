import EA.Lib.Lockstep
import EA.TsoState

namespace EA

/-- What a replica of the oracle applies entries to: `_tso_obj` and `_is_healty`. -/
abbrev TsoReplica := TsoObj × Bool

def TsoReplica.init : TsoReplica := (TsoObj.init, true)

/-- One committed entry, with whether it was accepted. -/
def tsoStep (s : TsoReplica) (request : TsoRequest) : TsoReplica × Bool :=
  let out := tsoApply request s.1 s.2
  ((out.1, out.2.1), out.2.2.errcode = some .success)

/-- A fresh process that loads the snapshot of a replica. -/
def TsoReplica.reloaded (s : TsoReplica) : TsoReplica :=
  (loadTso (tsoSnapshot s.1) TsoObj.init, true)

/-- After the cut the reloaded replica decides as the one that applied the whole log,
and ends with the same bound. -/
def SnapshotReplays (before after : List TsoRequest) : Prop :=
  let cut := (Run.all tsoStep .init before).1
  let whole := Run.all tsoStep .init (before ++ after)
  let loaded := Run.all tsoStep cut.reloaded after
  whole.2 = (Run.all tsoStep .init before).2 ++ loaded.2 ∧
    loaded.1.1.lastSavePhysical = whole.1.1.lastSavePhysical

/-- An entry that `update_tso` or `reset_tso` does not skip. -/
def TsoRequest.complete (request : TsoRequest) : Bool :=
  request.opType = .opUpdateTso || request.opType = .opResetTso &&
    (request.currentTimestamp.isSome && request.savePhysical.isSome)

/-- A reset that is carried out whatever the state. -/
def TsoRequest.forced (request : TsoRequest) : Bool :=
  request.opType = .opResetTso && request.complete && request.force

/-- An entry that falls back neither behind the time nor behind the bound. -/
def TsoRequest.advances (request : TsoRequest) (obj : TsoObj) : Bool :=
  request.complete && !timeFallback request obj

/-- The first entry after the cut that is forced, or advances the time before the cut
or time zero, is forced or advances both. -/
def CutHarmless (obj : TsoObj) (after : List TsoRequest) : Prop :=
  let zero := loadTso obj.lastSavePhysical TsoObj.init
  ∀ request, after.find? (fun request => request.forced || request.advances obj ||
      request.advances zero) = some request →
    request.forced = true ∨ (request.advances obj = true ∧ request.advances zero = true)

theorem tsoStep_cases (s : TsoReplica) (request : TsoRequest) :
    ((request.forced = true ∨ request.advances s.1 = true) ∧ (tsoStep s request).2 = true ∧
      (tsoStep s request).1.1 = ⟨request.current, request.save⟩) ∨
    (request.forced = false ∧ request.advances s.1 = false ∧ (tsoStep s request).2 = false ∧
      (tsoStep s request).1 = s) := by
  obtain ⟨obj, healthy⟩ := s
  cases op : request.opType with
  | opUpdateTso =>
    cases back : timeFallback request obj with
    | true =>
      refine Or.inr ⟨?_, ?_, ?_, ?_⟩
      · simp [TsoRequest.forced, op]
      · simp [TsoRequest.advances, back]
      · simp [tsoStep, tsoApply, updateTso, op, back]
      · simp [tsoStep, tsoApply, updateTso, op, back]
    | false =>
      refine Or.inl ⟨Or.inr ?_, ?_, ?_⟩
      · simp [TsoRequest.advances, TsoRequest.complete, op, back]
      · simp [tsoStep, tsoApply, updateTso, op, back]
      · simp [tsoStep, tsoApply, updateTso, op, back]
  | opResetTso =>
    cases fields : request.currentTimestamp.isSome && request.savePhysical.isSome with
    | false =>
      refine Or.inr ⟨?_, ?_, ?_, ?_⟩
      · simp [TsoRequest.forced, TsoRequest.complete, op, fields]
      · simp [TsoRequest.advances, TsoRequest.complete, op, fields]
      · simp [tsoStep, tsoApply, resetTso, op, fields]
      · simp [tsoStep, tsoApply, resetTso, op, fields]
    | true =>
      cases halts : timeFallback request obj && !request.force with
      | true =>
        obtain ⟨back, unforced⟩ := Bool.and_eq_true_iff.mp halts
        refine Or.inr ⟨?_, ?_, ?_, ?_⟩
        · simp only [Bool.not_eq_true'] at unforced
          simp [TsoRequest.forced, unforced]
        · simp [TsoRequest.advances, back]
        · simp [tsoStep, tsoApply, resetTso, op, fields, halts]
        · simp [tsoStep, tsoApply, resetTso, op, fields, halts]
      | false =>
        refine Or.inl ⟨?_, ?_, ?_⟩
        · rcases Bool.and_eq_false_iff.mp halts with ahead | force
          · exact Or.inr (by simp [TsoRequest.advances, TsoRequest.complete, op, fields, ahead])
          · simp only [Bool.not_eq_false'] at force
            exact Or.inl (by simp [TsoRequest.forced, TsoRequest.complete, op, fields, force])
        · simp [tsoStep, tsoApply, resetTso, op, fields, halts]
        · simp [tsoStep, tsoApply, resetTso, op, fields, halts]
  | opGenTso | opQueryTsoInfo | other =>
    refine Or.inr ⟨?_, ?_, ?_, ?_⟩
    · simp [TsoRequest.forced, op]
    · simp [TsoRequest.advances, TsoRequest.complete, op]
    · simp [tsoStep, tsoApply, op]
    · simp [tsoStep, tsoApply, op]

theorem tsoStep_accepts {s : TsoReplica} {request : TsoRequest}
    (h : request.forced = true ∨ request.advances s.1 = true) :
    (tsoStep s request).2 = true ∧ (tsoStep s request).1.1 = ⟨request.current, request.save⟩ := by
  rcases tsoStep_cases s request with ⟨_, accepted, next⟩ | ⟨unforced, stays, _⟩
  · exact ⟨accepted, next⟩
  · simp [unforced, stays] at h

theorem tsoStep_rejects {s : TsoReplica} {request : TsoRequest}
    (unforced : request.forced = false) (stays : request.advances s.1 = false) :
    (tsoStep s request).2 = false ∧ (tsoStep s request).1 = s := by
  rcases tsoStep_cases s request with ⟨taken, _⟩ | ⟨_, _, rejected, same⟩
  · simp [unforced, stays] at taken
  · exact ⟨rejected, same⟩

/-- Whether an entry is accepted does not depend on `_is_healty`. -/
theorem tsoStep_sameObj {s t : TsoReplica} (same : s.1 = t.1) (request : TsoRequest) :
    (tsoStep s request).2 = (tsoStep t request).2 ∧
      (tsoStep s request).1.1 = (tsoStep t request).1.1 := by
  by_cases taken : request.forced = true ∨ request.advances s.1 = true
  · obtain ⟨accepted, next⟩ := tsoStep_accepts taken
    obtain ⟨accepted', next'⟩ := tsoStep_accepts (same ▸ taken)
    rw [accepted, accepted', next, next']
    exact ⟨rfl, rfl⟩
  · obtain ⟨unforced, stays⟩ := not_or.mp taken
    obtain ⟨rejected, here⟩ := tsoStep_rejects (by simpa using unforced) (by simpa using stays)
    rw [same] at stays
    obtain ⟨rejected', here'⟩ := tsoStep_rejects (by simpa using unforced) (by simpa using stays)
    rw [rejected, rejected', here, here']
    exact ⟨rfl, same⟩

theorem run_sameObj {s t : TsoReplica} (same : s.1 = t.1) (log : List TsoRequest) :
    (Run.all tsoStep s log).2 = (Run.all tsoStep t log).2 ∧
      (Run.all tsoStep s log).1.1 = (Run.all tsoStep t log).1.1 := by
  have events : List.Forall₂ (· = ·) log log := by rw [List.forall₂_eq_eq_eq]
  have any : Run.Throughout tsoStep (fun _ _ => True) s log := fun _ _ _ _ => trivial
  refine Run.lockstep (R := fun s t : TsoReplica => s.1 = t.1) ?_ events same any
  rintro s t request _ same rfl _
  exact tsoStep_sameObj same request

theorem cutHarmless_of_skipped {obj : TsoObj} {request : TsoRequest} {after : List TsoRequest}
    (unforced : request.forced = false) (stays : request.advances obj = false)
    (behind : request.advances (loadTso obj.lastSavePhysical TsoObj.init) = false) :
    CutHarmless obj (request :: after) ↔ CutHarmless obj after := by
  unfold CutHarmless
  dsimp only
  rw [List.find?_cons_of_neg (by simp [unforced, stays, behind])]

theorem cutHarmless_of_decided {obj : TsoObj} {request : TsoRequest} {after : List TsoRequest}
    (decided : request.forced = true ∨ request.advances obj = true ∨
      request.advances (loadTso obj.lastSavePhysical TsoObj.init) = true) :
    CutHarmless obj (request :: after) ↔ request.forced = true ∨
      (request.advances obj = true ∧
        request.advances (loadTso obj.lastSavePhysical TsoObj.init) = true) := by
  unfold CutHarmless
  dsimp only
  rw [List.find?_cons_of_pos (by simpa [or_assoc] using decided)]
  simp

/-- Two replicas with one bound, the second at time zero, agree on a suffix just when
the cut before it is harmless. -/
theorem suffix_agrees_iff {s t : TsoReplica}
    (zero : t.1 = loadTso s.1.lastSavePhysical TsoObj.init) (after : List TsoRequest) :
    ((Run.all tsoStep s after).2 = (Run.all tsoStep t after).2 ∧
      (Run.all tsoStep t after).1.1.lastSavePhysical =
        (Run.all tsoStep s after).1.1.lastSavePhysical) ↔ CutHarmless s.1 after := by
  induction after with
  | nil => simp [CutHarmless, zero, loadTso]
  | cons request after ih =>
    rw [Run.all_cons, Run.all_cons]
    by_cases takenFirst : request.forced = true ∨ request.advances s.1 = true
    · obtain ⟨accepted, next⟩ := tsoStep_accepts takenFirst
      by_cases takenSecond : request.forced = true ∨ request.advances t.1 = true
      · -- both take the entry and hold the same time from here on
        obtain ⟨accepted', next'⟩ := tsoStep_accepts takenSecond
        obtain ⟨answers, final⟩ := run_sameObj (next.trans next'.symm) after
        rw [cutHarmless_of_decided (or_assoc.mp (Or.inl takenFirst)), accepted, accepted', answers,
          final, ← zero]
        simp only [and_self, true_iff]
        rcases takenFirst with forced | first
        · exact Or.inl forced
        · exact takenSecond.imp_right fun second => ⟨first, second⟩
      · obtain ⟨unforced, behind⟩ := not_or.mp takenSecond
        have rejected := (tsoStep_rejects (by simpa using unforced) (by simpa using behind)).1
        rw [cutHarmless_of_decided (or_assoc.mp (Or.inl takenFirst)), accepted, rejected, ← zero]
        simp [unforced, behind]
    · obtain ⟨unforced, stays⟩ := not_or.mp takenFirst
      obtain ⟨rejected, here⟩ := tsoStep_rejects (by simpa using unforced) (by simpa using stays)
      by_cases ahead : request.advances t.1 = true
      · have accepted := (tsoStep_accepts (Or.inr ahead)).1
        rw [cutHarmless_of_decided (Or.inr (Or.inr (zero ▸ ahead))), accepted, rejected]
        simp [unforced, stays]
      · obtain ⟨rejected', here'⟩ := tsoStep_rejects (by simpa using unforced)
          (by simpa using ahead)
        rw [cutHarmless_of_skipped (by simpa using unforced) (by simpa using stays)
          (by simpa [zero] using ahead), rejected, rejected', here, here', ← ih]
        simp

/-- A snapshot stands for the log before it just when the cut is harmless. -/
theorem snapshot_replays_iff (before after : List TsoRequest) :
    SnapshotReplays before after ↔
      CutHarmless (Run.all tsoStep .init before).1.1 after := by
  rw [← suffix_agrees_iff (t := (Run.all tsoStep .init before).1.reloaded) rfl]
  unfold SnapshotReplays
  dsimp only
  rw [Run.all_append]
  simp

/-- The time before the cut is lost: an entry behind it is accepted. -/
theorem reloaded_falls_back : ¬ ∀ before after, SnapshotReplays before after := by
  intro replays
  have same := (replays [syncTimestamp ⟨100, 0⟩ 3000] [syncTimestamp ⟨50, 0⟩ 6000]).1
  exact absurd same (by decide)

end EA
