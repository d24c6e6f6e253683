import Mathlib

universe u v w x

/-! A loop that tries until a try ends it or the tries are used up. -/

namespace Retry

variable {σ : Type u} {ε : Type v} {τ : Type w}

/-- What a try makes of the state, what is recorded of it, and whether it ends the loop. -/
structure Attempt (σ : Type u) (τ : Type w) where
  state : σ
  record : τ
  done : Bool

structure Result (σ : Type u) (τ : Type w) where
  state : σ
  records : List τ
  done : Bool

/-- The rounds of `do … while (tries < limit)` from the one of number `tries` on, where
the round of number `n` meets `events n`. -/
def loop (attempt : σ → ε → Attempt σ τ) (limit : Int) (events : Nat → ε) (tries : Nat) (s : σ) :
    Result σ τ :=
  let next := attempt s (events tries)
  if next.done then ⟨next.state, [next.record], true⟩
  else if tries + 1 < limit then
    let rest := loop attempt limit events (tries + 1) next.state
    ⟨rest.state, next.record :: rest.records, rest.done⟩
  else ⟨next.state, [next.record], false⟩
termination_by (limit - tries).toNat

variable {attempt : σ → ε → Attempt σ τ} {limit : Int} {events : Nat → ε}

theorem loop_of_done {tries : Nat} {s : σ} (h : (attempt s (events tries)).done = true) :
    loop attempt limit events tries s =
      ⟨(attempt s (events tries)).state, [(attempt s (events tries)).record], true⟩ := by
  rw [loop]
  simp [h]

theorem loop_of_exhausted {tries : Nat} {s : σ} (h : (attempt s (events tries)).done = false)
    (used : limit ≤ tries + 1) :
    loop attempt limit events tries s =
      ⟨(attempt s (events tries)).state, [(attempt s (events tries)).record], false⟩ := by
  rw [loop]
  simp [h, used]

theorem loop_of_more {tries : Nat} {s : σ} (h : (attempt s (events tries)).done = false)
    (left : tries + 1 < limit) :
    loop attempt limit events tries s =
      ⟨(loop attempt limit events (tries + 1) (attempt s (events tries)).state).state,
        (attempt s (events tries)).record ::
          (loop attempt limit events (tries + 1) (attempt s (events tries)).state).records,
        (loop attempt limit events (tries + 1) (attempt s (events tries)).state).done⟩ := by
  rw [loop]
  simp [h, left]

/-- The rule for what every round of the loop does. -/
theorem loop_induction {P : Nat → σ → Result σ τ → Prop}
    (done : ∀ tries s, (attempt s (events tries)).done = true →
      P tries s ⟨(attempt s (events tries)).state, [(attempt s (events tries)).record], true⟩)
    (exhausted : ∀ tries s, (attempt s (events tries)).done = false → limit ≤ tries + 1 →
      P tries s ⟨(attempt s (events tries)).state, [(attempt s (events tries)).record], false⟩)
    (more : ∀ tries s rest, (attempt s (events tries)).done = false → tries + 1 < limit →
      P (tries + 1) (attempt s (events tries)).state rest →
      P tries s ⟨rest.state, (attempt s (events tries)).record :: rest.records, rest.done⟩)
    (tries : Nat) (s : σ) : P tries s (loop attempt limit events tries s) := by
  induction h : (limit - tries).toNat generalizing tries s with
  | zero =>
    cases ends : (attempt s (events tries)).done with
    | true =>
      rw [loop_of_done ends]
      exact done tries s ends
    | false =>
      rw [loop_of_exhausted ends (by omega)]
      exact exhausted tries s ends (by omega)
  | succ n ih =>
    cases ends : (attempt s (events tries)).done with
    | true =>
      rw [loop_of_done ends]
      exact done tries s ends
    | false =>
      by_cases left : tries + 1 < limit
      · rw [loop_of_more ends left]
        exact more tries s _ ends left (ih (tries + 1) _ (by omega))
      · rw [loop_of_exhausted ends (by omega)]
        exact exhausted tries s ends (by omega)

theorem length_records_le (attempt : σ → ε → Attempt σ τ) (limit : Int) (events : Nat → ε)
    (tries : Nat) (s : σ) :
    (loop attempt limit events tries s).records.length ≤ max 1 (limit - tries).toNat := by
  induction tries, s using loop_induction with
  | done tries s ends => simp
  | exhausted tries s ends used => simp
  | more tries s rest ends left ih =>
    rw [List.length_cons]
    omega

/-- A loop that no try ends makes all of its tries. -/
theorem length_records_of_not_done (attempt : σ → ε → Attempt σ τ) (limit : Int)
    (events : Nat → ε) (tries : Nat) (s : σ)
    (h : (loop attempt limit events tries s).done = false) :
    (loop attempt limit events tries s).records.length = max 1 (limit - tries).toNat := by
  induction tries, s using loop_induction with
  | done tries s ends => simp at h
  | exhausted tries s ends used =>
    rw [List.length_singleton]
    omega
  | more tries s rest ends left ih =>
    have later := ih h
    rw [List.length_cons]
    omega

/-- A part of the state that every try sets from its record and the value before. -/
theorem loop_fold {α : Type x} (part : σ → α) (set : α → τ → α)
    (each : ∀ s e, part (attempt s e).state = set (part s) (attempt s e).record)
    (tries : Nat) (s : σ) : part (loop attempt limit events tries s).state =
      (loop attempt limit events tries s).records.foldl set (part s) := by
  induction tries, s using loop_induction with
  | done tries s _ | exhausted tries s _ _ => exact each s (events tries)
  | more tries s rest _ _ ih => rw [ih, each s (events tries), List.foldl_cons]

/-- Only the last try can end the loop, and it gives the loop's state. -/
theorem loop_last (attempt : σ → ε → Attempt σ τ) (limit : Int) (events : Nat → ε)
    (tries : Nat) (s : σ) :
    ∃ front before e, (loop attempt limit events tries s).records =
        front ++ [(attempt before e).record] ∧
      (loop attempt limit events tries s).state = (attempt before e).state ∧
      (loop attempt limit events tries s).done = (attempt before e).done ∧
      ∀ r ∈ front, ∃ before e, r = (attempt before e).record ∧ (attempt before e).done = false := by
  induction tries, s using loop_induction with
  | done tries s ends => exact ⟨[], s, events tries, rfl, rfl, ends.symm, by simp⟩
  | exhausted tries s ends used => exact ⟨[], s, events tries, rfl, rfl, ends.symm, by simp⟩
  | more tries s rest ends left ih =>
    obtain ⟨front, before, e, records, state, done, earlier⟩ := ih
    refine ⟨(attempt s (events tries)).record :: front, before, e, by simp [records], state, done,
      ?_⟩
    intro r mem
    rcases List.mem_cons.mp mem with rfl | mem
    · exact ⟨s, events tries, rfl, ends⟩
    · exact earlier r mem

/-- The tries meet the events in order. -/
theorem record_of_event (tries : Nat) (s : σ) {i : Nat} {r : τ}
    (h : (loop attempt limit events tries s).records[i]? = some r) :
    ∃ before, r = (attempt before (events (tries + i))).record := by
  induction tries, s using loop_induction generalizing i with
  | done tries s _ | exhausted tries s _ _ =>
    cases i with
    | zero => exact ⟨s, (Option.some.inj h).symm⟩
    | succ i => simp at h
  | more tries s rest _ _ ih =>
    cases i with
    | zero => exact ⟨s, (Option.some.inj h).symm⟩
    | succ i =>
      obtain ⟨before, eq⟩ := ih (i := i) h
      rw [show tries + 1 + i = tries + (i + 1) by omega] at eq
      exact ⟨before, eq⟩

/-- An invariant that speaks of what was recorded so far, and what it gives of each try. -/
theorem loop_invariant {I : List τ → σ → Prop} {G : List τ → τ → Prop}
    (step : ∀ past s e, I past s → G past (attempt s e).record ∧
      I (past ++ [(attempt s e).record]) (attempt s e).state)
    (tries : Nat) (s : σ) {past : List τ} (start : I past s) :
    I (past ++ (loop attempt limit events tries s).records)
        (loop attempt limit events tries s).state ∧
      ∀ pre r post, (loop attempt limit events tries s).records = pre ++ r :: post →
        G (past ++ pre) r := by
  have last : ∀ past s e, I past s → ∀ pre r post, [(attempt s e).record] = pre ++ r :: post →
      G (past ++ pre) r := by
    intro past s e start pre r post split
    cases pre with
    | nil =>
      cases (List.cons.inj split).1
      simpa using (step past s e start).1
    | cons r' pre => simp at split
  induction tries, s using loop_induction generalizing past with
  | done tries s _ | exhausted tries s _ _ =>
    exact ⟨(step past s _ start).2, last past s _ start⟩
  | more tries s rest _ _ ih =>
    obtain ⟨here, next⟩ := step past s (events tries) start
    obtain ⟨final, later⟩ := ih next
    refine ⟨by simpa using final, fun pre r post split => ?_⟩
    cases pre with
    | nil =>
      cases (List.cons.inj split).1
      simpa using here
    | cons r' pre =>
      obtain ⟨rfl, tail⟩ := List.cons.inj split
      simpa using later pre r post tail

end Retry
