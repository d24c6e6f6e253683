import Mathlib

namespace Reach

variable {σ ε : Type*}

/-- States reached from `init` by enabled steps that all satisfy `ok`. A step
function answers `none` when the event is not enabled in the state. -/
inductive From (step : σ → ε → Option σ) (ok : σ → ε → Prop) (init : σ) : σ → Prop
  | start : From step ok init init
  | next {s t : σ} {e : ε} : From step ok init s → ok s e → step s e = some t →
      From step ok init t

variable {step : σ → ε → Option σ} {ok : σ → ε → Prop} {init : σ}

/-- An invariant may use that the state it is carried from is itself reached. -/
theorem From.invariant {I : σ → Prop} (base : I init)
    (preserve : ∀ s e t, From step ok init s → I s → ok s e → step s e = some t → I t)
    {s : σ} (h : From step ok init s) : I s := by
  induction h with
  | start => exact base
  | next reach hok hs ih => exact preserve _ _ _ reach ih hok hs

theorem From.trans {s t : σ} (h : From step ok init s) (h' : From step ok s t) :
    From step ok init t := by
  induction h' with
  | start => exact h
  | next _ hok hs ih => exact ih.next hok hs

/-- A list of enabled events whose steps are all allowed reaches its result. -/
theorem From.of_foldlM {es : List ε} {t : σ} (allowed : ∀ s, ∀ e ∈ es, ok s e)
    (h : es.foldlM step init = some t) : From step ok init t := by
  induction es generalizing init with
  | nil =>
    cases Option.some.inj h
    exact From.start
  | cons e es ih =>
    rw [List.foldlM_cons] at h
    obtain ⟨s, hs, h⟩ := Option.bind_eq_some_iff.mp h
    have first : From step ok init s := From.start.next (allowed init e (by simp)) hs
    exact first.trans (ih (fun s e he => allowed s e (List.mem_cons_of_mem _ he)) h)

/-- With a decidable `ok`, a run that tests it before every step is a reach. -/
theorem From.of_checked [∀ s e, Decidable (ok s e)] {es : List ε} {t : σ}
    (h : es.foldlM (fun s e => if ok s e then step s e else none) init = some t) :
    From step ok init t := by
  induction es generalizing init with
  | nil =>
    cases Option.some.inj h
    exact From.start
  | cons e es ih =>
    rw [List.foldlM_cons] at h
    obtain ⟨s, hs, h⟩ := Option.bind_eq_some_iff.mp h
    split at hs
    next hok => exact (From.start.next hok hs).trans (ih h)
    next => simp at hs

end Reach
