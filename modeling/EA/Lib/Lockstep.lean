import Mathlib

universe u v w x y

/-! Runs that answer every event, and two such runs side by side. -/

namespace Run

variable {σ : Type u} {τ : Type v} {ε : Type w} {δ : Type x} {β : Type y}

/-- The events taken one after the other, with the answer to each. -/
def all (step : σ → ε → σ × β) : σ → List ε → σ × List β
  | s, [] => (s, [])
  | s, e :: es =>
    let rest := all step (step s e).1 es
    (rest.1, (step s e).2 :: rest.2)

variable {step : σ → ε → σ × β}

@[simp] theorem all_nil (s : σ) : all step s [] = (s, []) := rfl

@[simp] theorem all_cons (s : σ) (e : ε) (es : List ε) :
    all step s (e :: es) = ((all step (step s e).1 es).1, (step s e).2 :: (all step (step s e).1 es).2) :=
  rfl

theorem all_append (s : σ) (es fs : List ε) :
    all step s (es ++ fs) = ((all step (all step s es).1 fs).1,
      (all step s es).2 ++ (all step (all step s es).1 fs).2) := by
  induction es generalizing s with
  | nil => rfl
  | cons e es ih => simp [ih]

/-- The state in which a run meets the event of number `n`. -/
def stateAt (step : σ → ε → σ × β) (s : σ) (es : List ε) (n : Nat) : σ := (all step s (es.take n)).1

theorem stateAt_succ {s : σ} {es : List ε} {n : Nat} {e : ε} (h : es[n]? = some e) :
    stateAt step s es (n + 1) = (step (stateAt step s es n) e).1 := by
  rw [stateAt, List.take_add_one, h, all_append]
  rfl

/-- Every event of the run is good in the state it meets. -/
def Throughout (step : σ → ε → σ × β) (good : σ → ε → Prop) (s : σ) (es : List ε) : Prop :=
  ∀ pre e rest, es = pre ++ e :: rest → good (all step s pre).1 e

theorem Throughout.head {good : σ → ε → Prop} {s : σ} {e : ε} {es : List ε}
    (h : Throughout step good s (e :: es)) : good s e := h [] e es rfl

theorem Throughout.tail {good : σ → ε → Prop} {s : σ} {e : ε} {es : List ε}
    (h : Throughout step good s (e :: es)) : Throughout step good (step s e).1 es := by
  intro pre e' rest split
  exact h (e :: pre) e' rest (by rw [split]; rfl)

theorem throughout_nil {good : σ → ε → Prop} {s : σ} : Throughout step good s [] := by
  intro pre e rest split
  simp at split

theorem throughout_cons {good : σ → ε → Prop} {s : σ} {e : ε} {es : List ε} :
    Throughout step good s (e :: es) ↔ good s e ∧ Throughout step good (step s e).1 es := by
  constructor
  · exact fun h => ⟨h.head, h.tail⟩
  · intro ⟨first, later⟩ pre e' rest split
    cases pre with
    | nil =>
      cases (List.cons.inj split).1
      exact first
    | cons e'' pre =>
      obtain ⟨rfl, split'⟩ := List.cons.inj split
      exact later pre e' rest split'

/-- Every state of the run has the property, the first and the last included. -/
def Always (step : σ → ε → σ × β) (P : σ → Prop) (s : σ) (es : List ε) : Prop :=
  ∀ pre rest, es = pre ++ rest → P (all step s pre).1

theorem always_nil {P : σ → Prop} {s : σ} : Always step P s [] ↔ P s := by
  constructor
  · exact fun h => h [] [] rfl
  · intro h pre rest split
    rw [(List.append_eq_nil_iff.mp split.symm).1]
    exact h

theorem always_cons {P : σ → Prop} {s : σ} {e : ε} {es : List ε} :
    Always step P s (e :: es) ↔ P s ∧ Always step P (step s e).1 es := by
  constructor
  · intro h
    refine ⟨h [] _ rfl, fun pre rest split => ?_⟩
    exact h (e :: pre) rest (by rw [split]; rfl)
  · intro ⟨first, later⟩ pre rest split
    cases pre with
    | nil => exact first
    | cons e' pre =>
      obtain ⟨rfl, split'⟩ := List.cons.inj split
      exact later pre rest split'

/-- Where an invariant gives the property, is kept by good events and turned by
no other event into a state with the property, good runs are those that always have it. -/
theorem always_iff_throughout {P I : σ → Prop} {fits : ε → Prop} {good : σ → ε → Prop}
    (sound : ∀ s, I s → P s) (next : ∀ s e, fits e → I s → good s e → I (step s e).1)
    (needs : ∀ s e, fits e → I s → P (step s e).1 → good s e) {es : List ε}
    (fit : ∀ e ∈ es, fits e) {s : σ} (start : I s) :
    Always step P s es ↔ Throughout step good s es := by
  induction es generalizing s with
  | nil =>
    rw [always_nil]
    exact ⟨fun _ => throughout_nil, fun _ => sound s start⟩
  | cons e es ih =>
    have here := fit e (by simp)
    have later := fun e' mem => fit e' (List.mem_cons_of_mem _ mem)
    rw [always_cons, throughout_cons]
    constructor
    · intro ⟨_, always⟩
      have good : good s e := needs s e here start (always [] es rfl)
      exact ⟨good, (ih later (next s e here start good)).mp always⟩
    · intro ⟨good, throughout⟩
      exact ⟨sound s start, (ih later (next s e here start good)).mpr throughout⟩

/-- Two runs over corresponding events stay related and answer alike, where every
good event is answered alike in related states. -/
theorem lockstep {step' : τ → δ → τ × β} {R : σ → τ → Prop} {E : ε → δ → Prop}
    {good : σ → ε → Prop}
    (alike : ∀ s t e d, R s t → E e d → good s e →
      (step s e).2 = (step' t d).2 ∧ R (step s e).1 (step' t d).1)
    {es : List ε} {ds : List δ} (events : List.Forall₂ E es ds) {s : σ} {t : τ} (start : R s t)
    (h : Throughout step good s es) :
    (all step s es).2 = (all step' t ds).2 ∧ R (all step s es).1 (all step' t ds).1 := by
  induction events generalizing s t with
  | nil => exact ⟨rfl, start⟩
  | cons he _ ih =>
    obtain ⟨same, next⟩ := alike _ _ _ _ start he h.head
    obtain ⟨later, final⟩ := ih next h.tail
    exact ⟨by rw [all_cons, all_cons, same, later], final⟩

/-- The runs, with their answers, of a system whose steps are a relation. -/
inductive Traced (Step : τ → ε → β → τ → Prop) : τ → List ε → List β → τ → Prop
  | nil (t : τ) : Traced Step t [] [] t
  | cons {t t' t'' : τ} {e : ε} {es : List ε} {b : β} {bs : List β} (first : Step t e b t')
      (rest : Traced Step t' es bs t'') : Traced Step t (e :: es) (b :: bs) t''

/-- Where every answered step for a good event is one that the related state can take,
every run of good events is too. -/
theorem traced_of_allowed {Step : τ → ε → β → τ → Prop} {R : σ → τ → Prop} {good : ε → Prop}
    (simulates : ∀ s t e, R s t → good e → ∃ t', Step t e (step s e).2 t' ∧ R (step s e).1 t')
    {es : List ε} (allowed : ∀ e ∈ es, good e) {s : σ} {t : τ} (start : R s t) :
    ∃ t', Traced Step t es (all step s es).2 t' ∧ R (all step s es).1 t' := by
  induction es generalizing s t with
  | nil => exact ⟨t, .nil t, start⟩
  | cons e es ih =>
    obtain ⟨t', first, next⟩ := simulates s t e start (allowed e (by simp))
    obtain ⟨t'', rest, final⟩ := ih (fun e' mem => allowed e' (List.mem_cons_of_mem _ mem)) next
    exact ⟨t'', .cons first rest, final⟩

theorem traced_of_simulation {Step : τ → ε → β → τ → Prop} {R : σ → τ → Prop}
    (simulates : ∀ s t e, R s t → ∃ t', Step t e (step s e).2 t' ∧ R (step s e).1 t')
    (es : List ε) {s : σ} {t : τ} (start : R s t) :
    ∃ t', Traced Step t es (all step s es).2 t' ∧ R (all step s es).1 t' := by
  have allowed : ∀ e ∈ es, (fun _ : ε => True) e := fun _ _ => trivial
  exact traced_of_allowed (fun s t e related _ => simulates s t e related) allowed start

end Run
