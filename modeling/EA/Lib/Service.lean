import Mathlib.Data.List.Nodup
import Mathlib.Logic.ExistsUnique

universe u v w x

/-! Calls to a service whose machines all take their entries from one log. -/

namespace Service

variable {γ : Type u} {Req : Type v} {Op : Type w} {Ans : Type x}

/-- What the type `γ` of calls keeps of a call. Times are counted in steps, `index` is the
place of its entry in the log, and `answer` what it was answered on behalf of its entry. -/
structure Fields (γ : Type u) (Req : Type v) (Ans : Type x) where
  name : γ → Nat
  request : γ → Req
  arrivedAt : γ → Nat
  endedAt : γ → Nat
  index : γ → Option Nat
  answer : γ → Option Ans

/-- The log orders the calls: their entries stand apart in it, each answer is the one that
belongs at the place of its entry, and no entry stands before that of a call that was over
when its own call came in. -/
structure Ordered (F : Fields γ Req Ans) (entry : Req → Op) (answerAt : List Op → Req → Ans)
    (clock : Nat) (log : List Op) (calls : List γ) : Prop where
  distinct : (calls.map F.name).Nodup
  arrived : ∀ c ∈ calls, F.arrivedAt c < clock
  placed : ∀ c ∈ calls, ∀ n, F.index c = some n → log[n]? = some (entry (F.request c))
  apart : ∀ c ∈ calls, ∀ c' ∈ calls, ∀ n, F.index c = some n → F.index c' = some n → c = c'
  listed : ∀ n < log.length, ∃ c ∈ calls, F.index c = some n
  answered : ∀ c ∈ calls, ∀ a, F.answer c = some a →
    ∃ n, F.index c = some n ∧ a = answerAt (log.take n) (F.request c)
  ordered : ∀ c ∈ calls, ∀ c' ∈ calls, ∀ a, F.answer c = some a → F.endedAt c < F.arrivedAt c' →
    ∀ n n', F.index c = some n → F.index c' = some n' → n < n'

/-- The second call is the first one later on. -/
structure Fields.Keeps (F : Fields γ Req Ans) (c c' : γ) : Prop where
  name : F.name c' = F.name c
  request : F.request c' = F.request c
  arrivedAt : F.arrivedAt c' = F.arrivedAt c
  index : F.index c' = F.index c

/-- The call takes the place of the one with its name. -/
def Fields.replace (F : Fields γ Req Ans) (call : γ) (calls : List γ) : List γ :=
  calls.map fun c => if F.name c = F.name call then call else c

theorem Fields.forall_replace (F : Fields γ Req Ans) {P : γ → Prop} (call : γ) {calls : List γ}
    (own : P call) (all : ∀ c ∈ calls, P c) : ∀ c ∈ F.replace call calls, P c := by
  intro c mem
  obtain ⟨old, known, rfl⟩ := List.mem_map.mp mem
  split
  next => exact own
  next => exact all old known

variable {F : Fields γ Req Ans} {entry : Req → Op} {answerAt : List Op → Req → Ans} {clock : Nat}
  {log : List Op} {calls : List γ}

theorem ordered_nil : Ordered F entry answerAt clock [] [] where
  distinct := .nil
  arrived c mem := by cases mem
  placed c mem := by cases mem
  apart c mem := by cases mem
  listed n lt := by cases lt
  answered c mem := by cases mem
  ordered c mem := by cases mem

namespace Ordered

variable (h : Ordered F entry answerAt clock log calls)

include h

theorem within {c : γ} (mem : c ∈ calls) {n : Nat} (here : F.index c = some n) :
    n < log.length := (List.getElem?_eq_some_iff.mp (h.placed c mem n here)).1

theorem own {c c' : γ} (mem : c ∈ calls) (mem' : c' ∈ calls) (same : F.name c = F.name c') :
    c = c' := List.inj_on_of_nodup_map h.distinct mem mem' same

/-- Calls end, some of them with the answers of their entries. -/
theorem update {f : γ → γ} (keeps : ∀ c ∈ calls, F.Keeps c (f c))
    (ends : ∀ c ∈ calls, (F.answer (f c) = F.answer c ∧ F.endedAt (f c) = F.endedAt c) ∨
      (F.endedAt (f c) = clock ∧ ∀ a, F.answer (f c) = some a →
        ∃ n, F.index c = some n ∧ a = answerAt (log.take n) (F.request c))) :
    Ordered F entry answerAt (clock + 1) log (calls.map f) := by
  constructor
  case distinct =>
    have same : (calls.map f).map F.name = calls.map F.name := by
      rw [List.map_map]
      exact List.map_congr_left fun c mem => (keeps c mem).name
    rw [same]
    exact h.distinct
  case arrived =>
    intro c mem
    obtain ⟨old, known, rfl⟩ := List.mem_map.mp mem
    have before := h.arrived old known
    rw [(keeps old known).arrivedAt]
    omega
  case placed =>
    intro c mem n here
    obtain ⟨old, known, rfl⟩ := List.mem_map.mp mem
    rw [(keeps old known).request]
    exact h.placed old known n ((keeps old known).index ▸ here)
  case apart =>
    intro c mem c' mem' n here here'
    obtain ⟨old, known, rfl⟩ := List.mem_map.mp mem
    obtain ⟨old', known', rfl⟩ := List.mem_map.mp mem'
    have index := (keeps old known).index
    have index' := (keeps old' known').index
    rw [h.apart old known old' known' n (index ▸ here) (index' ▸ here')]
  case listed =>
    intro n lt
    obtain ⟨old, known, here⟩ := h.listed n lt
    exact ⟨f old, List.mem_map_of_mem known, (keeps old known).index.trans here⟩
  case answered =>
    intro c mem a ended
    obtain ⟨old, known, rfl⟩ := List.mem_map.mp mem
    rw [(keeps old known).request, (keeps old known).index]
    rcases ends old known with ⟨answer, _⟩ | ⟨_, now⟩
    · exact h.answered old known a (answer ▸ ended)
    · exact now a ended
  case ordered =>
    intro c mem c' mem' a ended later n n' here here'
    obtain ⟨old, known, rfl⟩ := List.mem_map.mp mem
    obtain ⟨old', known', rfl⟩ := List.mem_map.mp mem'
    have index := (keeps old known).index
    have index' := (keeps old' known').index
    have arrived' := (keeps old' known').arrivedAt
    have before := h.arrived old' known'
    rcases ends old known with ⟨answer, endedAt⟩ | ⟨endedAt, _⟩
    · refine h.ordered old known old' known' a (answer ▸ ended) ?_ n n' (index ▸ here)
        (index' ▸ here')
      omega
    · omega

/-- One call moves on without an answer from the log. -/
theorem moveOn {call call' : γ} (mem : call ∈ calls) (keeps : F.Keeps call call')
    (ends : (F.answer call' = F.answer call ∧ F.endedAt call' = F.endedAt call) ∨
      (F.endedAt call' = clock ∧ F.answer call' = none)) :
    Ordered F entry answerAt (clock + 1) log (F.replace call' calls) := by
  refine h.update ?_ ?_
  · intro c known
    by_cases same : F.name c = F.name call'
    · rw [if_pos same, h.own known mem (same.trans keeps.name)]
      exact keeps
    · rw [if_neg same]
      exact ⟨rfl, rfl, rfl, rfl⟩
  · intro c known
    by_cases same : F.name c = F.name call'
    · rw [if_pos same, h.own known mem (same.trans keeps.name)]
      rcases ends with still | ⟨now, unanswered⟩
      · exact Or.inl still
      · refine Or.inr ⟨now, fun a ended => ?_⟩
        rw [unanswered] at ended
        cases ended
    · rw [if_neg same]
      exact Or.inl ⟨rfl, rfl⟩

/-- A call comes in, and may be turned away at once. -/
theorem arrive {call : γ} (fresh : F.name call ∉ calls.map F.name)
    (now : F.arrivedAt call = clock) (uncommitted : F.index call = none)
    (unanswered : F.answer call = none) :
    Ordered F entry answerAt (clock + 1) log (call :: calls) := by
  have nowhere : ∀ {n : Nat} {p : Prop}, F.index call = some n → p := by
    intro n p here
    rw [uncommitted] at here
    cases here
  have silent : ∀ {a : Ans} {p : Prop}, F.answer call = some a → p := by
    intro a p ended
    rw [unanswered] at ended
    cases ended
  constructor
  case distinct => exact List.nodup_cons.mpr ⟨fresh, h.distinct⟩
  case arrived =>
    refine List.forall_mem_cons.mpr ⟨?_, fun c known => Nat.lt_succ_of_lt (h.arrived c known)⟩
    rw [now]
    exact Nat.lt_succ_self _
  case placed => exact List.forall_mem_cons.mpr ⟨fun n here => nowhere here, h.placed⟩
  case apart =>
    intro c known c' known' n here here'
    rcases List.mem_cons.mp known with rfl | old
    · exact nowhere here
    · rcases List.mem_cons.mp known' with rfl | old'
      · exact nowhere here'
      · exact h.apart c old c' old' n here here'
  case listed =>
    intro n lt
    obtain ⟨c, known, here⟩ := h.listed n lt
    exact ⟨c, List.mem_cons_of_mem _ known, here⟩
  case answered => exact List.forall_mem_cons.mpr ⟨fun a ended => silent ended, h.answered⟩
  case ordered =>
    intro c known c' known' a ended later n n' here here'
    rcases List.mem_cons.mp known with rfl | old
    · exact nowhere here
    · rcases List.mem_cons.mp known' with rfl | old'
      · exact nowhere here'
      · exact h.ordered c old c' old' a ended later n n' here here'

/-- The entry of a call is committed behind all others. -/
theorem commit {call : γ} (mem : call ∈ calls) (uncommitted : F.index call = none) (call' : γ)
    (name : F.name call' = F.name call) (request : F.request call' = F.request call)
    (arrivedAt : F.arrivedAt call' = F.arrivedAt call) (answer : F.answer call' = F.answer call)
    (index : F.index call' = some log.length) :
    Ordered F entry answerAt (clock + 1) (log ++ [entry (F.request call)])
      (F.replace call' calls) := by
  have unanswered : F.answer call' = none := by
    rw [answer]
    refine Option.eq_none_iff_forall_ne_some.mpr fun a ended => ?_
    obtain ⟨n, here, _⟩ := h.answered call mem a ended
    rw [uncommitted] at here
    cases here
  -- the calls afterwards
  have moved : ∀ c ∈ F.replace call' calls, c = call' ∨ (c ∈ calls ∧ c ≠ call) := by
    intro c known
    obtain ⟨old, knownOld, rfl⟩ := List.mem_map.mp known
    by_cases same : F.name old = F.name call'
    · rw [if_pos same]
      exact Or.inl rfl
    · rw [if_neg same]
      refine Or.inr ⟨knownOld, ?_⟩
      rintro rfl
      exact same name.symm
  have kept : ∀ c ∈ calls, c ≠ call → c ∈ F.replace call' calls := by
    intro c known other
    refine List.mem_map.mpr ⟨c, known, if_neg fun same => ?_⟩
    exact other (h.own known mem (same.trans name))
  have sooner : ∀ c ∈ calls, ∀ n, F.index c = some n →
      (log ++ [entry (F.request call)]).take n = log.take n := fun c known n here =>
    List.take_append_of_le_length (Nat.le_of_lt (h.within known here))
  have last : ∀ {n : Nat}, F.index call' = some n → log.length = n := fun here =>
    Option.some.inj (index.symm.trans here)
  constructor
  case distinct =>
    have same : (F.replace call' calls).map F.name = calls.map F.name := by
      rw [Fields.replace, List.map_map]
      refine List.map_congr_left fun c _ => ?_
      by_cases same : F.name c = F.name call' <;> simp [same]
    rw [same]
    exact h.distinct
  case arrived =>
    intro c known
    rcases moved c known with rfl | ⟨old, _⟩
    · rw [arrivedAt]
      exact Nat.lt_succ_of_lt (h.arrived call mem)
    · exact Nat.lt_succ_of_lt (h.arrived c old)
  case placed =>
    intro c known n here
    rcases moved c known with rfl | ⟨old, _⟩
    · rw [← last here, request]
      simp
    · rw [List.getElem?_append_left (h.within old here)]
      exact h.placed c old n here
  case apart =>
    intro c known c' known' n here here'
    rcases moved c known with rfl | ⟨old, _⟩
    · rcases moved c' known' with rfl | ⟨old', _⟩
      · rfl
      · have at_end := last here
        have lt := h.within old' here'
        omega
    · rcases moved c' known' with rfl | ⟨old', _⟩
      · have at_end := last here'
        have lt := h.within old here
        omega
      · exact h.apart c old c' old' n here here'
  case listed =>
    intro n lt
    by_cases at_end : n = log.length
    · exact ⟨call', List.mem_map.mpr ⟨call, mem, if_pos name.symm⟩, at_end ▸ index⟩
    · have before : n < log.length := by
        simp only [List.length_append, List.length_singleton] at lt
        omega
      obtain ⟨c, known, here⟩ := h.listed n before
      have other : c ≠ call := by
        rintro rfl
        rw [uncommitted] at here
        cases here
      exact ⟨c, kept c known other, here⟩
  case answered =>
    intro c known a ended
    rcases moved c known with rfl | ⟨old, _⟩
    · rw [unanswered] at ended
      cases ended
    · obtain ⟨n, here, eq⟩ := h.answered c old a ended
      rw [← sooner c old n here] at eq
      exact ⟨n, here, eq⟩
  case ordered =>
    intro c known c' known' a ended later n n' here here'
    rcases moved c known with rfl | ⟨old, _⟩
    · rw [unanswered] at ended
      cases ended
    · rcases moved c' known' with rfl | ⟨old', _⟩
      · rw [← last here']
        exact h.within old here
      · exact h.ordered c old c' old' a ended later n n' here here'

/-- The calls and the places of the log belong together one to one where there is an answer. -/
theorem linearizes :
    (∀ c ∈ calls, ∀ a, F.answer c = some a → ∃ n, F.index c = some n ∧
      log[n]? = some (entry (F.request c)) ∧ a = answerAt (log.take n) (F.request c)) ∧
    ∀ n < log.length, ∃! c, c ∈ calls ∧ F.index c = some n := by
  constructor
  · intro c mem a ended
    obtain ⟨n, here, eq⟩ := h.answered c mem a ended
    exact ⟨n, here, h.placed c mem n here, eq⟩
  · intro n lt
    obtain ⟨c, mem, here⟩ := h.listed n lt
    refine ⟨c, ⟨mem, here⟩, ?_⟩
    rintro other ⟨known, there⟩
    exact h.apart other known c mem n there here

end Ordered

end Service
