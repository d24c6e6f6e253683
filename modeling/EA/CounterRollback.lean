import EA.AutoIncr

namespace EA

variable {m : AutoIncrementMap} {request : AutoIncrRequest}

/-- Without force the servlet's counter does not fall, other counters stay, and a
rejected request changes nothing. -/
structure NoRollback (m : AutoIncrementMap) (request : AutoIncrRequest) : Prop where
  counter : request.force ≠ some true → ∀ before, m[request.servletId]? = some before →
    ∃ after, (autoIncrApply m request).1[request.servletId]? = some after ∧ before ≤ after
  others : ∀ servletId : Int64, request.servletId ≠ servletId →
    (autoIncrApply m request).1[servletId]? = m[servletId]?
  rejected : (autoIncrApply m request).2.errcode ≠ .success → (autoIncrApply m request).1 = m

/-- Where a new range starts. The id behind the hint 2^64 - 1 is 0. -/
def rangeStart (hint : Option UInt64) (counter : UInt64) : Nat :=
  match hint with
  | some startId => max counter.toNat ((startId.toNat + 1) % 2 ^ 64)
  | none => counter.toNat

/-- The sum behind the new counter does not pass 2^64 - 1, or it passes the old counter
once more. -/
def SumsHold (request : AutoIncrRequest) (counter : UInt64) : Prop :=
  match request.opType with
  | .opGenIdForAutoIncrement =>
    rangeStart request.startId counter + request.count.toNat < 2 ^ 64 ∨
      counter.toNat + 2 ^ 64 ≤ rangeStart request.startId counter + request.count.toNat
  | .opUpdateForAutoIncrement => request.startId = none → ∀ incrementId,
      request.incrementId = some incrementId → counter.toNat + incrementId.toNat < 2 ^ 64
  | _ => True

theorem genStart_toNat (request : AutoIncrRequest) (counter : UInt64) :
    (genStart request counter).toNat = rangeStart request.startId counter := by
  unfold genStart
  split
  next startId hint =>
    rw [hint, rangeStart]
    have next : (startId + 1).toNat = (startId.toNat + 1) % 2 ^ 64 := by simp
    split
    next below =>
      have lt := UInt64.lt_iff_toNat_lt.mp below
      rw [next] at lt ⊢
      omega
    next above =>
      have le := UInt64.le_iff_toNat_le.mp (UInt64.not_lt.mp above)
      rw [next] at le
      omega
  next hint => rw [hint, rangeStart]

/-- A sum of two words is at least a bound below the first one, as natural numbers tell. -/
theorem le_add_iff {bound a b : UInt64} (below : bound ≤ a) :
    bound ≤ a + b ↔
      a.toNat + b.toNat < 2 ^ 64 ∨ bound.toNat + 2 ^ 64 ≤ a.toNat + b.toNat := by
  have ha := a.toNat_lt
  have hb := b.toNat_lt
  have le := UInt64.le_iff_toNat_le.mp below
  rw [UInt64.le_iff_toNat_le, UInt64.toNat_add]
  omega

/-- The counter that a found servlet has afterwards is kept exactly where the sums hold. -/
theorem counter_kept_iff {counter : UInt64} (known : m[request.servletId]? = some counter)
    (unforced : request.force ≠ some true)
    (moves : request.opType = .opGenIdForAutoIncrement ∨
      request.opType = .opUpdateForAutoIncrement) :
    (∃ after, (autoIncrApply m request).1[request.servletId]? = some after ∧ counter ≤ after) ↔
      SumsHold request counter := by
  have inserted : ∀ after : UInt64, (∃ now,
      (m.insert request.servletId after)[request.servletId]? = some now ∧ counter ≤ now) ↔
        counter ≤ after := by
    intro after
    rw [Table.lookup_insert_self]
    simp
  have stays : ∃ after, m[request.servletId]? = some after ∧ counter ≤ after :=
    ⟨counter, known, UInt64.le_refl _⟩
  rcases moves with op | op
  · simp only [autoIncrApply, SumsHold, op, genId, known]
    rw [inserted, le_add_iff (genStart_ge request counter), genStart_toNat]
  · simp only [autoIncrApply, SumsHold, op, AutoIncrementMap.update, known]
    have off : request.force.getD false = false := by
      cases hf : request.force with
      | none => rfl
      | some force =>
        cases force with
        | false => rfl
        | true => exact absurd hf unforced
    split
    next none => simpa [none] using stays
    next => exact iff_of_true stays (by simp [*])
    next startId none hint =>
      split
      next => exact iff_of_true stays (by simp [*])
      next ahead =>
        rw [inserted]
        refine iff_of_true ?_ (by simp [*])
        exact UInt64.not_lt.mp fun behind => ahead ⟨behind, off⟩
    next incrementId none given =>
      rw [inserted, le_add_iff (UInt64.le_refl counter)]
      have small := incrementId.toNat_lt
      simp only [none, given, Option.some.injEq, forall_eq', forall_const]
      omega

/-- Whatever the entry is, its rejection changes nothing. -/
theorem autoIncrApply_rejected
    (rejected : (autoIncrApply m request).2.errcode ≠ .success) :
    (autoIncrApply m request).1 = m := by
  cases op : request.opType with
  | opAddIdForAutoIncrement =>
    simp only [autoIncrApply, op, addServletId] at rejected ⊢
    split at rejected
    next => rfl
    next => exact absurd rfl rejected
  | opDropIdForAutoIncrement =>
    simp only [autoIncrApply, op, dropServletId] at rejected ⊢
    split at rejected
    next => rfl
    next => exact absurd rfl rejected
  | opGenIdForAutoIncrement | opUpdateForAutoIncrement =>
    cases known : m[request.servletId]? with
    | none => simp only [autoIncrApply, op, genId, AutoIncrementMap.update, known]
    | some counter =>
      have step := autoIncrApply_step known (by simp [op])
      generalize autoIncrApply m request = out at step rejected
      cases step with
      | refused | unknown => rfl
      | gen | start | increment => exact absurd rfl rejected
  | other => simp only [autoIncrApply, op]

/-- Counters do not roll back if and only if the request is forced or its sums hold. -/
theorem no_rollback_iff (moves : request.opType = .opGenIdForAutoIncrement ∨
      request.opType = .opUpdateForAutoIncrement) :
    NoRollback m request ↔ request.force = some true ∨
      ∀ counter, m[request.servletId]? = some counter → SumsHold request counter := by
  constructor
  · intro h
    by_cases forced : request.force = some true
    · exact Or.inl forced
    · refine Or.inr fun counter known => ?_
      exact (counter_kept_iff known forced moves).mp (h.counter forced counter known)
  · intro holds
    refine ⟨?_, fun servletId other => autoIncrApply_other other m, autoIncrApply_rejected⟩
    intro unforced counter known
    rcases holds with forced | sums
    · exact absurd forced unforced
    · exact (counter_kept_iff known unforced moves).mpr (sums counter known)

/-- A range of five ids behind the hint 20 is taken from a counter at 10. -/
theorem range_behind_hint :
    NoRollback ((∅ : AutoIncrementMap).insert 7 10)
      { opType := .opGenIdForAutoIncrement, servletId := 7, startId := some 20, count := 5 } := by
  refine (no_rollback_iff (Or.inl rfl)).mpr (Or.inr ?_)
  intro counter known
  cases Option.some.inj ((Table.lookup_insert_self _ _ _).symm.trans known)
  exact Or.inl (by decide)

/-- A count of 2^64 - 5 takes the counter from 10 to 5. -/
theorem large_count_rolls_back :
    ¬ ∀ (m : AutoIncrementMap) (request : AutoIncrRequest),
      request.opType = .opGenIdForAutoIncrement ∨ request.opType = .opUpdateForAutoIncrement →
      NoRollback m request := by
  intro never
  let request : AutoIncrRequest :=
    { opType := .opGenIdForAutoIncrement, servletId := 7, count := 18446744073709551611 }
  obtain ⟨after, found, above⟩ := (never ((∅ : AutoIncrementMap).insert 7 10) request
    (Or.inl rfl)).counter (by decide) 10 (Table.lookup_insert_self _ _ _)
  have fallen : (autoIncrApply ((∅ : AutoIncrementMap).insert 7 10) request).1[(7 : Int64)]? =
      some 5 := by decide
  cases Option.some.inj (fallen.symm.trans found)
  exact absurd above (by decide)

end EA
