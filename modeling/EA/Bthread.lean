import EA.Lib.Reach

set_option linter.unusedSectionVars false

namespace EA

/-- A call of `wait` or of `increase_wait`, with its argument. -/
structure Waiter where
  increases : Bool
  cond : Int
deriving DecidableEq

def Waiter.blocked (w : Waiter) (count : Int) : Bool :=
  if w.increases then count + 1 > w.cond else count > w.cond

/-- A `BthreadCond` with the threads that are in `bthread_cond_wait`, and those that have
been woken there and wait for the mutex. -/
structure BthreadCond (θ : Type) where
  count : Int := 0
  asleep : List (θ × Waiter) := []
  notified : List (θ × Waiter) := []

variable {θ : Type}

namespace BthreadCond

def increase (c : BthreadCond θ) : BthreadCond θ := { c with count := c.count + 1 }

/-- What `wait` and `increase_wait` do after their loop. -/
def leave (c : BthreadCond θ) (x : θ × Waiter) : BthreadCond θ :=
  if x.2.increases then c.increase else c

/-- One turn of the loop under the mutex, and whether it was the last one. -/
def attempt (c : BthreadCond θ) (x : θ × Waiter) : BthreadCond θ × Bool :=
  if x.2.blocked c.count then ({ c with asleep := x :: c.asleep }, false) else (c.leave x, true)

/-- The rest of the loop once `bthread_cond_wait` has returned: an error is logged and breaks
it off, whatever the count is. -/
def resume (c : BthreadCond θ) (x : θ × Waiter) (ret : Int) : BthreadCond θ × Bool :=
  if ret ≠ 0 then (c.leave x, true) else c.attempt x

variable [DecidableEq θ]

/-- A sleeper leaves `bthread_cond_wait`. -/
def notify (c : BthreadCond θ) (x : θ × Waiter) : BthreadCond θ :=
  { c with asleep := c.asleep.erase x, notified := x :: c.notified }

/-- The signal wakes one of the sleepers, if there is one. -/
def decreaseSignal (c : BthreadCond θ) (woken : Option (θ × Waiter)) : Option (BthreadCond θ) :=
  let less := { c with count := c.count - 1 }
  match woken with
  | none => if c.asleep = [] then some less else none
  | some x => if x ∈ c.asleep then some (less.notify x) else none

def waiters (c : BthreadCond θ) : List (θ × Waiter) := c.asleep ++ c.notified

end BthreadCond

/-- A call of `join` that has returned: what its wait gave it last, how many bthreads were
running then, and how many starts had failed. -/
structure Joined (θ : Type) where
  thread : θ
  ret : Int
  running : Nat
  unstarted : Nat
deriving DecidableEq

/-- A `ConcurrencyBthread` with its bthreads. `unstarted` counts the calls of `run` whose
bthread could not be started, and `overruns` those that an error of the wait has let through. -/
structure ConcurrencyBthread (θ : Type) where
  concurrency : Int
  cond : BthreadCond θ := {}
  running : Nat := 0
  unstarted : Nat := 0
  overruns : Nat := 0
  joined : List (Joined θ) := []

/-- `started` tells whether `bthread_start_background` works, if the thread gets so far. -/
inductive PoolEvent (θ : Type) where
  /-- A thread calls `run`. -/
  | run (t : θ) (started : Bool)
  | join (t : θ)
  /-- A bthread is done with its call, and signals. -/
  | finish (woken : Option (θ × Waiter))
  /-- A woken thread has the mutex again, and `bthread_cond_wait` returns. -/
  | wake (x : θ × Waiter) (ret : Int) (started : Bool)
  /-- A sleeper wakes up without a signal. -/
  | spurious (x : θ × Waiter)

namespace ConcurrencyBthread

def runWaiter (p : ConcurrencyBthread θ) : Waiter := { increases := true, cond := p.concurrency }

def joinWaiter : Waiter := { increases := false, cond := 0 }

/-- The rest of `run` after `increase_wait`, whose result it does not look at. A bthread that
cannot be started is logged, and stays counted. -/
def start (p : ConcurrencyBthread θ) (cond : BthreadCond θ) (ret : Int) (started : Bool) :
    ConcurrencyBthread θ :=
  { p with
    cond := cond
    running := if started then p.running + 1 else p.running
    unstarted := if started then p.unstarted else p.unstarted + 1
    overruns := if ret = 0 then p.overruns else p.overruns + 1 }

/-- The thread goes back to sleep, starts its bthread, or returns from `join`. -/
def enter (p : ConcurrencyBthread θ) (x : θ × Waiter) (ret : Int) (started : Bool)
    (out : BthreadCond θ × Bool) : ConcurrencyBthread θ :=
  if !out.2 then { p with cond := out.1 }
  else if x.2.increases then p.start out.1 ret started
  else { p with cond := out.1, joined := ⟨x.1, ret, p.running, p.unstarted⟩ :: p.joined }

variable [DecidableEq θ]

def step (p : ConcurrencyBthread θ) : PoolEvent θ → Option (ConcurrencyBthread θ)
  | .run t started =>
    if t ∈ p.cond.waiters.map Prod.fst then none
    else some (p.enter (t, p.runWaiter) 0 started (p.cond.attempt (t, p.runWaiter)))
  | .join t =>
    if t ∈ p.cond.waiters.map Prod.fst then none
    else some (p.enter (t, joinWaiter) 0 true (p.cond.attempt (t, joinWaiter)))
  | .finish woken =>
    if p.running = 0 then none
    else (p.cond.decreaseSignal woken).map fun cond =>
      { p with cond := cond, running := p.running - 1 }
  | .wake x ret started =>
    if x ∈ p.cond.notified then
      let cond := { p.cond with notified := p.cond.notified.erase x }
      some (p.enter x ret started (cond.resume x ret))
    else none
  | .spurious x =>
    if x ∈ p.cond.asleep then some { p with cond := p.cond.notify x } else none

/-- How a thread leaves the mutex. -/
inductive Entered (p : ConcurrencyBthread θ) (cond : BthreadCond θ) (x : θ × Waiter) (ret : Int)
    (started : Bool) : ConcurrencyBthread θ → Prop
  | sleeps (blocked : x.2.blocked cond.count = true) :
      Entered p cond x ret started { p with cond := { cond with asleep := x :: cond.asleep } }
  | starts (increases : x.2.increases = true) (room : ret = 0 → cond.count + 1 ≤ x.2.cond) :
      Entered p cond x ret started (p.start cond.increase ret started)
  | returns (joins : x.2.increases = false) (done : ret = 0 → cond.count ≤ x.2.cond) :
      Entered p cond x ret started
        { p with cond := cond, joined := ⟨x.1, ret, p.running, p.unstarted⟩ :: p.joined }

/-- A thread whose loop is over: by an error of its wait, or because nothing blocks it. -/
theorem leave_entered (p : ConcurrencyBthread θ) (cond : BthreadCond θ) (x : θ × Waiter)
    {ret : Int} (started : Bool) (free : ret = 0 → ¬ x.2.blocked cond.count = true) :
    Entered p cond x ret started (p.enter x ret started (cond.leave x, true)) := by
  unfold ConcurrencyBthread.enter BthreadCond.leave
  cases increases : x.2.increases with
  | true =>
    refine .starts increases fun fine => ?_
    simpa [Waiter.blocked, increases] using free fine
  | false =>
    refine .returns increases fun fine => ?_
    simpa [Waiter.blocked, increases] using free fine

theorem attempt_entered (p : ConcurrencyBthread θ) (cond : BthreadCond θ) (x : θ × Waiter)
    (ret : Int) (started : Bool) :
    Entered p cond x ret started (p.enter x ret started (cond.attempt x)) := by
  unfold BthreadCond.attempt
  split
  next blocked => exact .sleeps blocked
  next free => exact leave_entered p cond x started fun _ => free

theorem resume_entered (p : ConcurrencyBthread θ) (cond : BthreadCond θ) (x : θ × Waiter)
    (ret : Int) (started : Bool) :
    Entered p cond x ret started (p.enter x ret started (cond.resume x ret)) := by
  unfold BthreadCond.resume
  split
  next error => exact leave_entered p cond x started fun fine => absurd fine error
  next => exact attempt_entered p cond x ret started

theorem mem_waiters {c : BthreadCond θ} {x : θ × Waiter} :
    x ∈ c.waiters ↔ x ∈ c.asleep ∨ x ∈ c.notified := List.mem_append

/-- What a signal does: one bthread less, and one sleeper less if there was one. -/
inductive Signalled (c : BthreadCond θ) : BthreadCond θ → Prop
  | unheard (none : c.asleep = []) : Signalled c { c with count := c.count - 1 }
  | heard (x : θ × Waiter) (here : x ∈ c.asleep) :
      Signalled c { count := c.count - 1, asleep := c.asleep.erase x, notified := x :: c.notified }

theorem decreaseSignal_signalled {c c' : BthreadCond θ} {woken : Option (θ × Waiter)}
    (h : c.decreaseSignal woken = some c') : Signalled c c' := by
  unfold BthreadCond.decreaseSignal at h
  cases woken with
  | none =>
    dsimp only at h
    split at h
    next none =>
      cases h
      exact .unheard none
    next => cases h
  | some x =>
    dsimp only at h
    split at h
    next here =>
      cases h
      exact .heard x here
    next => cases h

/-- Everything that an event can do to a pool. -/
inductive Stepped (p : ConcurrencyBthread θ) : PoolEvent θ → ConcurrencyBthread θ → Prop
  | run {t : θ} {started : Bool} {p' : ConcurrencyBthread θ}
      (entered : Entered p p.cond (t, p.runWaiter) 0 started p') : Stepped p (.run t started) p'
  | join {t : θ} {p' : ConcurrencyBthread θ}
      (entered : Entered p p.cond (t, joinWaiter) 0 true p') : Stepped p (.join t) p'
  | finish {woken : Option (θ × Waiter)} {cond : BthreadCond θ} (busy : p.running ≠ 0)
      (signalled : Signalled p.cond cond) :
      Stepped p (.finish woken) { p with cond := cond, running := p.running - 1 }
  | wake {x : θ × Waiter} {ret : Int} {started : Bool} {p' : ConcurrencyBthread θ}
      (here : x ∈ p.cond.notified)
      (entered : Entered p { p.cond with notified := p.cond.notified.erase x } x ret started p') :
      Stepped p (.wake x ret started) p'
  | spurious {x : θ × Waiter} (here : x ∈ p.cond.asleep) :
      Stepped p (.spurious x) { p with cond := p.cond.notify x }

theorem step_stepped {p p' : ConcurrencyBthread θ} {e : PoolEvent θ} (step : p.step e = some p') :
    Stepped p e p' := by
  cases e with
  | run t started =>
    simp only [ConcurrencyBthread.step] at step
    split at step
    next => cases step
    next =>
      cases step
      exact .run (attempt_entered ..)
  | join t =>
    simp only [ConcurrencyBthread.step] at step
    split at step
    next => cases step
    next =>
      cases step
      exact .join (attempt_entered ..)
  | finish woken =>
    simp only [ConcurrencyBthread.step] at step
    split at step
    next => cases step
    next busy =>
      obtain ⟨cond, signalled, rfl⟩ := Option.map_eq_some_iff.mp step
      exact .finish busy (decreaseSignal_signalled signalled)
  | wake x ret started =>
    simp only [ConcurrencyBthread.step] at step
    split at step
    next here =>
      cases step
      exact .wake here (resume_entered ..)
    next => cases step
  | spurious x =>
    simp only [ConcurrencyBthread.step] at step
    split at step
    next here =>
      cases step
      exact .spurious here
    next => cases step

/-- The counter is the number of bthreads and of failed starts, whoever waits. -/
structure Bounded (p : ConcurrencyBthread θ) : Prop where
  counted : p.cond.count = p.running + p.unstarted
  bounded : (p.running + p.unstarted : Int) ≤ p.concurrency + p.overruns
  waits : ∀ x ∈ p.cond.waiters, x.2 = p.runWaiter ∨ x.2 = joinWaiter
  joins : ∀ j ∈ p.joined, j.ret = 0 → j.running = 0 ∧ j.unstarted = 0

theorem Bounded.enter {p p' : ConcurrencyBthread θ} (h : Bounded p) {cond : BthreadCond θ}
    (count : cond.count = p.cond.count) (fewer : ∀ x ∈ cond.waiters, x ∈ p.cond.waiters)
    {x : θ × Waiter} (own : x.2 = p.runWaiter ∨ x.2 = joinWaiter) {ret : Int} {started : Bool}
    (entered : Entered p cond x ret started p') : Bounded p' := by
  obtain ⟨counted, bounded, waits, joins⟩ := h
  have waits' : ∀ y ∈ cond.waiters, y.2 = p.runWaiter ∨ y.2 = joinWaiter :=
    fun y mem => waits y (fewer y mem)
  cases entered with
  | sleeps =>
    refine ⟨count.trans counted, bounded, fun y mem => ?_, joins⟩
    rcases List.mem_cons.mp mem with rfl | old
    · exact own
    · exact waits' y old
  | starts increases room =>
    have limit : x.2.cond = p.concurrency := by
      rcases own with runs | joins
      · rw [runs]
        rfl
      · rw [joins] at increases
        cases increases
    refine ⟨?_, ?_, waits', joins⟩
    · simp only [start, BthreadCond.increase]
      split <;> omega
    · simp only [start]
      split <;> split <;> omega
  | returns waiting done =>
    have limit : x.2.cond = 0 := by
      rcases own with runs | joins
      · rw [runs] at waiting
        cases waiting
      · rw [joins]
        rfl
    refine ⟨count.trans counted, bounded, waits', List.forall_mem_cons.mpr ⟨fun fine => ?_, joins⟩⟩
    have none := done fine
    dsimp only
    omega

theorem waiters_notify {c : BthreadCond θ} {x y : θ × Waiter} (here : x ∈ c.asleep)
    (mem : y ∈ (c.notify x).waiters) : y ∈ c.waiters := by
  rcases mem_waiters.mp mem with asleep | notified
  · exact mem_waiters.mpr (Or.inl (List.mem_of_mem_erase asleep))
  · rcases List.mem_cons.mp notified with rfl | old
    · exact mem_waiters.mpr (Or.inl here)
    · exact mem_waiters.mpr (Or.inr old)

theorem waiters_wake {c : BthreadCond θ} {x y : θ × Waiter}
    (mem : y ∈ ({ c with notified := c.notified.erase x } : BthreadCond θ).waiters) :
    y ∈ c.waiters := by
  rcases mem_waiters.mp mem with asleep | notified
  · exact mem_waiters.mpr (Or.inl asleep)
  · exact mem_waiters.mpr (Or.inr (List.mem_of_mem_erase notified))

theorem Bounded.step {p p' : ConcurrencyBthread θ} (h : Bounded p) {e : PoolEvent θ}
    (step : p.step e = some p') : Bounded p' := by
  cases step_stepped step with
  | run entered => exact h.enter rfl (fun _ mem => mem) (Or.inl rfl) entered
  | join entered => exact h.enter rfl (fun _ mem => mem) (Or.inr rfl) entered
  | finish busy signalled =>
    obtain ⟨counted, bounded, waits, joins⟩ := h
    cases signalled with
    | unheard =>
      refine ⟨?_, ?_, waits, joins⟩
      · dsimp only
        omega
      · dsimp only
        omega
    | heard x here =>
      refine ⟨?_, ?_, fun y mem => waits y (waiters_notify here mem), joins⟩
      · dsimp only
        omega
      · dsimp only
        omega
  | @wake x _ _ _ here entered =>
    refine h.enter ?_ ?_ (h.waits x (mem_waiters.mpr (Or.inr here))) entered
    · rfl
    · exact fun y mem => waiters_wake mem
  | spurious here =>
    exact ⟨h.counted, h.bounded, fun y mem => h.waits y (waiters_notify here mem), h.joins⟩

/-- Every run of a pool, with any number of threads that call it. -/
abbrev PoolReachable (concurrency : Int) (p : ConcurrencyBthread θ) : Prop :=
  Reach.From ConcurrencyBthread.step (fun _ _ => True) { concurrency := concurrency } p

theorem step_concurrency {p p' : ConcurrencyBthread θ} {e : PoolEvent θ}
    (step : p.step e = some p') : p'.concurrency = p.concurrency := by
  cases step_stepped step with
  | run entered | join entered | wake _ entered => cases entered <;> rfl
  | finish | spurious => rfl

/-- Over every interleaving of any number of threads, whatever waits and starts fail: a pool
never runs more bthreads than its concurrency and the calls that a failed wait has let
through, its counter is the number of bthreads and failed starts, and a call of `join` whose
wait has not failed returns only when none is running and no start has failed. -/
theorem pool_bounded {concurrency : Int} (positive : 0 ≤ concurrency) {p : ConcurrencyBthread θ}
    (run : PoolReachable concurrency p) :
    (p.running + p.unstarted : Int) ≤ concurrency + p.overruns ∧
      p.cond.count = p.running + p.unstarted ∧
      ∀ j ∈ p.joined, j.ret = 0 → j.running = 0 ∧ j.unstarted = 0 := by
  have inv : Bounded p ∧ p.concurrency = concurrency := by
    refine Reach.From.invariant
      (I := fun p : ConcurrencyBthread θ => Bounded p ∧ p.concurrency = concurrency) ?_ ?_ run
    · refine ⟨⟨rfl, ?_, ?_, ?_⟩, rfl⟩
      · simpa using positive
      · simp [BthreadCond.waiters]
      · simp
    · intro p e p' _ inv _ step
      exact ⟨inv.1.step step, (step_concurrency step).trans inv.2⟩
  exact ⟨inv.2 ▸ inv.1.bounded, inv.1.counted, inv.1.joins⟩

/-- One thread waits for room and another one joins when the only bthread ends. The signal
is for the one that joins. -/
def mixedEvents : List (PoolEvent Nat) :=
  [.run 1 true, .run 2 true, .join 3, .finish (some (3, joinWaiter)), .wake (3, joinWaiter) 0 true]

/-- Then the wait for room fails, and so does the start. -/
def failingEvents : List (PoolEvent Nat) :=
  mixedEvents ++ [.run 1 true, .spurious (2, ⟨true, 1⟩), .wake (2, ⟨true, 1⟩) 4 false]

theorem pool_bounded_failing : ∃ p : ConcurrencyBthread Nat,
    (p.running, p.unstarted, p.overruns, p.joined) = (1, 1, 1, [⟨3, 0, 0, 0⟩]) ∧
    (p.running + p.unstarted : Int) ≤ 1 + p.overruns ∧
      p.cond.count = p.running + p.unstarted ∧
      ∀ j ∈ p.joined, j.ret = 0 → j.running = 0 ∧ j.unstarted = 0 := by
  have run : (failingEvents.foldlM ConcurrencyBthread.step { concurrency := 1 }).map
      (fun p => (p.running, p.unstarted, p.overruns, p.joined)) =
        some (1, 1, 1, [⟨3, 0, 0, 0⟩]) := by decide
  obtain ⟨p, reached, counts⟩ := Option.map_eq_some_iff.mp run
  exact ⟨p, counts, pool_bounded (by decide) (Reach.From.of_foldlM (fun _ _ _ => trivial) reached)⟩

/-! No sleeper is forgotten where `join` waits alone. -/

/-- Nobody calls `join` while others wait, nobody calls `run` while one joins, and every
bthread can be started. -/
def JoinsAlone (p : ConcurrencyBthread θ) : PoolEvent θ → Prop
  | .run _ started => started = true ∧ ∀ x ∈ p.cond.waiters, x.2 = p.runWaiter
  | .join _ => p.cond.waiters = []
  | .wake _ _ started => started = true
  | _ => True

/-- Either all waiters want to start a bthread, and enough of them are awake to fill the
room that there is, or one waits for the last bthread. -/
inductive Awake (p : ConcurrencyBthread θ) : Prop
  | runners (all : ∀ x ∈ p.cond.waiters, x.2 = p.runWaiter)
      (fills : p.cond.asleep = [] ∨ p.concurrency - p.cond.count ≤ p.cond.notified.length)
  | joiner (t : θ) (alone : (p.cond.asleep = [(t, joinWaiter)] ∧ p.cond.notified = [] ∧
        0 < p.cond.count) ∨ (p.cond.asleep = [] ∧ p.cond.notified = [(t, joinWaiter)]))

theorem awake_of_none {p : ConcurrencyBthread θ} (none : p.cond.waiters = []) : Awake p := by
  have both := List.append_eq_nil_iff.mp none
  exact .runners (by simp [none]) (Or.inl both.1)

/-- A thread that wants to start a bthread takes the mutex. -/
theorem awake_runner {p p' : ConcurrencyBthread θ} {cond : BthreadCond θ} {t : θ} {ret : Int}
    {started : Bool} (count : cond.count = p.cond.count)
    (all : ∀ x ∈ cond.waiters, x.2 = p.runWaiter)
    (fills : cond.asleep = [] ∨ p.concurrency - p.cond.count ≤ cond.notified.length + 1)
    (entered : Entered p cond (t, p.runWaiter) ret started p') : Awake p' := by
  cases entered with
  | sleeps blocked =>
    have full : cond.count + 1 > p.concurrency := by
      simpa [Waiter.blocked, runWaiter] using blocked
    refine .runners (fun x mem => ?_) (Or.inr ?_)
    · rcases List.mem_cons.mp mem with rfl | old
      · rfl
      · exact all x old
    · dsimp only
      omega
  | starts increases room =>
    refine .runners all ?_
    rcases fills with none | enough
    · exact Or.inl none
    · right
      simp only [start, BthreadCond.increase]
      omega
  | returns joins => cases joins

theorem awake_joiner {p p' : ConcurrencyBthread θ} {cond : BthreadCond θ} {t : θ} {ret : Int}
    {started : Bool} (none : cond.waiters = [])
    (entered : Entered p cond (t, joinWaiter) ret started p') : Awake p' := by
  obtain ⟨asleep, notified⟩ := List.append_eq_nil_iff.mp none
  cases entered with
  | sleeps blocked =>
    have busy : cond.count > 0 := by simpa [Waiter.blocked, joinWaiter] using blocked
    refine .joiner t (Or.inl ⟨?_, notified, busy⟩)
    dsimp only
    rw [asleep]
  | starts increases => cases increases
  | returns => exact awake_of_none none

theorem Awake.finish {p : ConcurrencyBthread θ} (h : Awake p) {cond : BthreadCond θ}
    (signalled : Signalled p.cond cond) :
    Awake { p with cond := cond, running := p.running - 1 } := by
  cases h with
  | runners all fills =>
    cases signalled with
    | unheard none => exact .runners all (Or.inl none)
    | heard x here =>
      refine .runners (fun y mem => all y (waiters_notify here mem)) ?_
      rcases fills with none | enough
      · rw [none] at here
        cases here
      · right
        simp only [List.length_cons]
        omega
  | joiner t alone =>
    rcases alone with ⟨asleep, notified, busy⟩ | ⟨asleep, notified⟩
    · cases signalled with
      | unheard none =>
        rw [asleep] at none
        cases none
      | heard x here =>
        rw [asleep] at here
        cases List.mem_singleton.mp here
        refine .joiner t (Or.inr ⟨?_, ?_⟩)
        · simp [asleep]
        · simp [notified]
    · cases signalled with
      | unheard none => exact .joiner t (Or.inr ⟨asleep, notified⟩)
      | heard x here =>
        rw [asleep] at here
        cases here

theorem Awake.wake {p p' : ConcurrencyBthread θ} (h : Awake p) {x : θ × Waiter} {ret : Int}
    {started : Bool} (here : x ∈ p.cond.notified)
    (entered : Entered p { p.cond with notified := p.cond.notified.erase x } x ret started p') :
    Awake p' := by
  cases h with
  | runners all fills =>
    have runs : x.2 = p.runWaiter := all x (mem_waiters.mpr (Or.inr here))
    have pair : x = (x.1, p.runWaiter) := Prod.ext rfl runs
    have length := List.length_erase_of_mem here
    have some := List.length_pos_of_mem here
    rw [pair] at entered
    refine awake_runner (t := x.1) ?_ ?_ ?_ entered
    · rfl
    · exact fun y mem => all y (waiters_wake mem)
    · rw [← pair]
      rcases fills with none | enough
      · exact Or.inl none
      · right
        dsimp only
        omega
  | joiner t alone =>
    rcases alone with ⟨_, notified, _⟩ | ⟨asleep, notified⟩
    · rw [notified] at here
      cases here
    · rw [notified] at here
      cases List.mem_singleton.mp here
      refine awake_joiner ?_ entered
      simp [BthreadCond.waiters, asleep, notified]

theorem Awake.spurious {p : ConcurrencyBthread θ} (h : Awake p) {x : θ × Waiter}
    (here : x ∈ p.cond.asleep) : Awake { p with cond := p.cond.notify x } := by
  cases h with
  | runners all fills =>
    refine .runners (fun y mem => all y (waiters_notify here mem)) ?_
    rcases fills with none | enough
    · rw [none] at here
      cases here
    · right
      simp only [BthreadCond.notify, List.length_cons]
      omega
  | joiner t alone =>
    rcases alone with ⟨asleep, notified, _⟩ | ⟨asleep, _⟩
    · rw [asleep] at here
      cases List.mem_singleton.mp here
      refine .joiner t (Or.inr ⟨?_, ?_⟩)
      · simp [BthreadCond.notify, asleep]
      · simp [BthreadCond.notify, notified]
    · rw [asleep] at here
      cases here

theorem Awake.step {p p' : ConcurrencyBthread θ} (h : Awake p) {e : PoolEvent θ}
    (alone : JoinsAlone p e) (step : p.step e = some p') : Awake p' := by
  cases step_stepped step with
  | run entered =>
    refine awake_runner rfl alone.2 ?_ entered
    cases h with
    | runners _ fills =>
      rcases fills with none | enough
      · exact Or.inl none
      · exact Or.inr (by omega)
    | joiner t' joins =>
      have mem : (t', joinWaiter) ∈ p.cond.waiters := by
        rcases joins with ⟨asleep, _⟩ | ⟨_, notified⟩
        · simp [BthreadCond.waiters, asleep]
        · simp [BthreadCond.waiters, notified]
      have same := congrArg Waiter.increases (alone.2 _ mem)
      cases same
  | join entered => exact awake_joiner alone entered
  | finish _ signalled => exact h.finish signalled
  | wake here entered => exact h.wake here entered
  | spurious here => exact h.spurious here

/-- No start has failed. -/
theorem unstarted_step {p p' : ConcurrencyBthread θ} (none : p.unstarted = 0) {e : PoolEvent θ}
    (alone : JoinsAlone p e) (step : p.step e = some p') : p'.unstarted = 0 := by
  have entered : ∀ {cond x ret started}, started = true → Entered p cond x ret started p' →
      p'.unstarted = 0 := by
    intro cond x ret started works entered
    cases entered with
    | sleeps | returns => exact none
    | starts =>
      simp only [start, works, if_true]
      exact none
  cases step_stepped step with
  | run h => exact entered alone.1 h
  | join h => exact entered rfl h
  | wake _ h => exact entered alone h
  | finish | spurious => exact none

/-- What goes on in a pool while no thread calls it and every bthread can be started. -/
def Scheduled : PoolEvent θ → Prop
  | .finish _ => True
  | .wake _ _ started => started = true
  | .run .. | .join _ | .spurious _ => False

/-- A bound on the events that are still to come. -/
def effort (p : ConcurrencyBthread θ) : Nat :=
  3 * p.cond.asleep.length + 4 * p.cond.notified.length + 2 * p.running

theorem effort_step {p p' : ConcurrencyBthread θ} {e : PoolEvent θ} (scheduled : Scheduled e)
    (step : p.step e = some p') : p'.effort < p.effort := by
  cases step_stepped step with
  | run => cases scheduled
  | join => cases scheduled
  | spurious => cases scheduled
  | finish busy signalled =>
    cases signalled with
    | unheard =>
      simp only [effort]
      omega
    | heard x here =>
      have length := List.length_erase_of_mem here
      have some := List.length_pos_of_mem here
      simp only [effort, List.length_cons]
      omega
  | wake here entered =>
    have length := List.length_erase_of_mem here
    have some := List.length_pos_of_mem here
    cases entered with
    | sleeps =>
      simp only [effort, List.length_cons]
      omega
    | starts =>
      simp only [effort, start, BthreadCond.increase]
      split <;> omega
    | returns =>
      simp only [effort]
      omega

theorem effort_run {es : List (PoolEvent θ)} (scheduled : ∀ e ∈ es, Scheduled e)
    {p p' : ConcurrencyBthread θ} (steps : es.foldlM ConcurrencyBthread.step p = some p') :
    p'.effort + es.length ≤ p.effort := by
  induction es generalizing p with
  | nil =>
    cases Option.some.inj steps
    exact Nat.le_refl _
  | cons e es ih =>
    rw [List.foldlM_cons] at steps
    obtain ⟨next, step, steps⟩ := Option.bind_eq_some_iff.mp steps
    have first := effort_step (scheduled e (by simp)) step
    have later := ih (fun e' mem => scheduled e' (List.mem_cons_of_mem _ mem)) steps
    rw [List.length_cons]
    omega

theorem joinsAlone_of_scheduled {p : ConcurrencyBthread θ} {e : PoolEvent θ}
    (scheduled : Scheduled e) : JoinsAlone p e := by
  cases e with
  | run => cases scheduled
  | join => cases scheduled
  | finish => trivial
  | wake => exact scheduled
  | spurious => trivial

/-- A pool in which somebody waits or something runs is not stuck. -/
theorem not_stuck {p : ConcurrencyBthread θ} (positive : 0 < p.concurrency) (bounded : Bounded p)
    (started : p.unstarted = 0) (awake : Awake p) (still : ∀ e, Scheduled e → p.step e = none) :
    p.running = 0 ∧ p.cond.waiters = [] := by
  have idle : p.running = 0 := by
    by_contra busy
    cases sleepers : p.cond.asleep with
    | nil =>
      have step := still (.finish none) trivial
      simp [ConcurrencyBthread.step, BthreadCond.decreaseSignal, busy, sleepers] at step
    | cons x rest =>
      have step := still (.finish (some x)) trivial
      simp [ConcurrencyBthread.step, BthreadCond.decreaseSignal, busy, sleepers] at step
  have quiet : p.cond.notified = [] := by
    cases awakened : p.cond.notified with
    | nil => rfl
    | cons x rest =>
      have step := still (.wake x 0 true) rfl
      simp [ConcurrencyBthread.step, awakened] at step
  have counted := bounded.counted
  refine ⟨idle, List.append_eq_nil_iff.mpr ⟨?_, quiet⟩⟩
  cases awake with
  | runners _ fills =>
    rcases fills with none | enough
    · exact none
    · rw [quiet, List.length_nil] at enough
      omega
  | joiner t alone =>
    rcases alone with ⟨_, _, busy⟩ | ⟨_, notified⟩
    · omega
    · rw [quiet] at notified
      cases notified

/-- Where `join` waits alone and every bthread can be started, no thread sleeps for ever:
whatever the order in which bthreads end and woken threads come to the mutex, and whatever
waits fail, after boundedly many of these events nothing runs and nobody waits any more. -/
theorem pool_drains {concurrency : Int} (positive : 0 < concurrency) {p : ConcurrencyBthread θ}
    (run : Reach.From ConcurrencyBthread.step JoinsAlone { concurrency := concurrency } p)
    {es : List (PoolEvent θ)} (scheduled : ∀ e ∈ es, Scheduled e) {p' : ConcurrencyBthread θ}
    (steps : es.foldlM ConcurrencyBthread.step p = some p') :
    es.length ≤ p.effort ∧ ((∀ e, Scheduled e → p'.step e = none) →
      p'.running = 0 ∧ p'.cond.waiters = []) := by
  have whole := run.trans (Reach.From.of_foldlM
    (fun _ e mem => joinsAlone_of_scheduled (scheduled e mem)) steps)
  have inv : ((Bounded p' ∧ p'.unstarted = 0) ∧ Awake p') ∧ p'.concurrency = concurrency := by
    refine Reach.From.invariant (I := fun p : ConcurrencyBthread θ =>
      ((Bounded p ∧ p.unstarted = 0) ∧ Awake p) ∧ p.concurrency = concurrency) ?_ ?_ whole
    · refine ⟨⟨⟨⟨rfl, ?_, ?_, ?_⟩, rfl⟩, awake_of_none rfl⟩, rfl⟩
      · simpa using Int.le_of_lt positive
      · simp [BthreadCond.waiters]
      · simp
    · rintro p e p' _ ⟨⟨⟨bounded, none⟩, awake⟩, same⟩ alone step
      exact ⟨⟨⟨bounded.step step, unstarted_step none alone step⟩, awake.step alone step⟩,
        (step_concurrency step).trans same⟩
  refine ⟨?_, not_stuck (inv.2 ▸ positive) inv.1.1.1 inv.1.1.2 inv.1.2⟩
  have bound := effort_run scheduled steps
  omega

/-- The wait for room fails once the only bthread has ended. -/
theorem pool_drains_two : ∃ p p' : ConcurrencyBthread Nat, p.cond.asleep = [(2, p.runWaiter)] ∧
    3 ≤ p.effort ∧ ((∀ e, Scheduled e → p'.step e = none) →
      p'.running = 0 ∧ p'.cond.waiters = []) := by
  have steps : ([.finish (some (2, ⟨true, 1⟩)), .wake (2, ⟨true, 1⟩) 4 true, .finish none] :
      List (PoolEvent Nat)).foldlM ConcurrencyBthread.step
        { concurrency := 1, running := 1, cond := { count := 1, asleep := [(2, ⟨true, 1⟩)] } } =
          some { concurrency := 1, overruns := 1 } := rfl
  have first : JoinsAlone ({ concurrency := 1 } : ConcurrencyBthread Nat) (.run 1 true) := by
    refine ⟨rfl, fun x mem => ?_⟩
    cases mem
  have second : JoinsAlone ({ concurrency := 1, running := 1, cond := { count := 1 } } :
      ConcurrencyBthread Nat) (.run 2 true) := by
    refine ⟨rfl, fun x mem => ?_⟩
    cases mem
  have one : ({ concurrency := 1 } : ConcurrencyBthread Nat).step (.run 1 true) =
      some { concurrency := 1, running := 1, cond := { count := 1 } } := rfl
  have two : ({ concurrency := 1, running := 1, cond := { count := 1 } } :
      ConcurrencyBthread Nat).step (.run 2 true) =
        some { concurrency := 1, running := 1
               cond := { count := 1, asleep := [(2, ⟨true, 1⟩)] } } := rfl
  have run := (Reach.From.start.next first one).next second two
  refine ⟨_, _, rfl, pool_drains (by decide) run (fun e mem => ?_) steps⟩
  simp only [List.mem_cons, List.not_mem_nil, or_false] at mem
  rcases mem with rfl | rfl | rfl
  · trivial
  · rfl
  · trivial

/-- Where it does not wait alone, the thread that waits for room is forgotten. -/
theorem mixed_waiters_stuck :
    (mixedEvents.foldlM ConcurrencyBthread.step { concurrency := 1 }).map
      (fun p => (p.running, p.cond.asleep, p.cond.notified)) = some (0, [(2, ⟨true, 1⟩)], []) := by
  decide

end ConcurrencyBthread

end EA
