import EA.Lib.Reach
import EA.TsoState

namespace EA

/-- One leader term after its first sync: `_tso_obj`, the update that the timer
waits for inside `sync_timestamp`, and the blocks granted so far, oldest first. -/
structure TsoTerm where
  obj : TsoObj
  pending : Option TsoRequest
  granted : List (Block Int)
deriving DecidableEq

inductive TsoTermEvent where
  /-- One locked pass of a `gen_tso` call. -/
  | gen (count : Int64)
  /-- The timer reads `_tso_obj` and proposes. -/
  | read (now : Int64)
  /-- The proposed entry is applied by `update_tso`. -/
  | commit
  /-- The sync fails and the entry is never applied. -/
  | lose

def TsoTerm.start (entry : TsoRequest) (obj : TsoObj) : TsoTerm :=
  ⟨(updateTso entry obj).1, none, []⟩

def TsoTerm.step (s : TsoTerm) : TsoTermEvent → Option TsoTerm
  | .gen count =>
    match genTsoAttempt count s.obj with
    | some (t, obj) => some { s with obj := obj, granted := s.granted ++ [grantBlock t count] }
    | none => some s
  | .read now =>
    -- the repeated timer task never runs a second update before the first returns
    if s.pending.isSome then none
    else some { s with pending := updateTimestamp true now s.obj }
  | .commit => s.pending.map fun r => { s with obj := (updateTso r s.obj).1, pending := none }
  | .lose => s.pending.map fun _ => { s with pending := none }

def PositiveCount (_ : TsoTerm) : TsoTermEvent → Prop
  | .gen count => 0 < count
  | _ => True

/-- The logical part is more than half used up and the clock reads exactly one
guard interval before the physical part in memory. -/
def StepsBackOntoPhysical (now : Int64) (obj : TsoObj) : Prop :=
  maxLogical / 2 < obj.currentTimestamp.logical ∧
    now + updateTimestampGuardMs = obj.currentTimestamp.physical

def NoLogicalOverflow (count : Int64) (obj : TsoObj) : Prop :=
  obj.currentTimestamp.logical.toInt + count.toInt < 2 ^ 63

def TermSafe (s : TsoTerm) : TsoTermEvent → Prop
  | .gen count => 0 < count ∧ NoLogicalOverflow count s.obj
  | .read now => ¬ StepsBackOntoPhysical now s.obj
  | _ => True

instance (count : Int64) (obj : TsoObj) : Decidable (NoLogicalOverflow count obj) :=
  inferInstanceAs (Decidable (_ < _))

instance (now : Int64) (obj : TsoObj) : Decidable (StepsBackOntoPhysical now obj) :=
  inferInstanceAs (Decidable (_ ∧ _))

instance (s : TsoTerm) (e : TsoTermEvent) : Decidable (TermSafe s e) := by
  cases e <;> unfold TermSafe <;> infer_instance

def TsoObj.covers (obj : TsoObj) (b : Block Int) : Prop :=
  b.Below obj.currentTimestamp.physical.toInt obj.currentTimestamp.logical.toInt

/-- The pair in memory lies above every granted block, and the entry in flight
does not carry the physical part in memory. -/
structure TermInv (s : TsoTerm) : Prop where
  ordered : s.granted.Pairwise Block.Before
  covered : ∀ b ∈ s.granted, s.obj.covers b
  moving : ∀ r, s.pending = some r → r.current.physical ≠ s.obj.currentTimestamp.physical

/-- A pass of `gen_tso` starts its block at the pair in memory and moves the
pair to the end of the block. -/
theorem covers_attempt {count : Int64} {obj obj' : TsoObj} {t : TsoTimestamp}
    (h : genTsoAttempt count obj = some (t, obj')) (pos : 0 < count)
    (fits : NoLogicalOverflow count obj) :
    obj'.covers (grantBlock t count) ∧ (∀ b, obj.covers b → obj'.covers b) ∧
      ∀ b, obj.covers b → b.Below (grantBlock t count).first (grantBlock t count).start := by
  obtain ⟨_, _, rfl, rfl⟩ := genTsoAttempt_eq_some.mp h
  have sum := toInt_add_of_lt pos fits
  have hc : 0 < count.toInt := by simpa [Int64.lt_iff_toInt_lt] using pos
  refine ⟨?_, ?_, fun b hb => hb⟩
  · simp only [TsoObj.covers, sum]
    exact Block.below_self_end _ _ _
  · intro b hb
    exact Block.Below.advance hb (by simp only [sum]; omega)

/-- An entry that `update_tso` accepts at another physical part raises the pair
above everything below the old one. -/
theorem covers_updateTso {r : TsoRequest} {obj : TsoObj}
    (moving : r.current.physical ≠ obj.currentTimestamp.physical) {b : Block Int}
    (hb : obj.covers b) : (updateTso r obj).1.covers b := by
  rcases updateTso_cases r obj with ⟨_, eq, _⟩ | ⟨pass, eq, _⟩
  · rwa [eq]
  · rw [eq]
    have le := (timeFallback_eq_false.mp pass).2
    apply Block.Below.raise _ hb
    rw [Int64.le_iff_toInt_le] at le
    have ne : r.current.physical.toInt ≠ obj.currentTimestamp.physical.toInt :=
      fun eq => moving (Int64.toInt_inj.mp eq)
    dsimp only
    omega

theorem updateTimestamp_moving {now : Int64} {obj : TsoObj} {r : TsoRequest}
    (safe : ¬ StepsBackOntoPhysical now obj)
    (h : updateTimestamp true now obj = some r) :
    r.current.physical ≠ obj.currentTimestamp.physical := by
  obtain ⟨_, next, save, rfl, ⟨rfl, ahead⟩ | ⟨rfl, _, half⟩, _⟩ := updateTimestamp_cases h
  · intro eq
    simp only [syncTimestamp_current] at eq
    rw [eq, Int64.sub_self] at ahead
    exact absurd ahead (by decide)
  · exact fun eq => safe ⟨half, eq⟩

theorem termInv_step {s t : TsoTerm} {e : TsoTermEvent} (inv : TermInv s) (safe : TermSafe s e)
    (h : s.step e = some t) : TermInv t := by
  cases e with
  | gen count =>
    simp only [TsoTerm.step] at h
    split at h
    next ts obj hg =>
      cases Option.some.inj h
      obtain ⟨self, keep, below⟩ := covers_attempt hg safe.1 safe.2
      have same : obj.currentTimestamp.physical = s.obj.currentTimestamp.physical := by
        obtain ⟨_, _, _, rfl⟩ := genTsoAttempt_eq_some.mp hg
        rfl
      refine ⟨Block.before_concat inv.ordered fun b hb => below b (inv.covered b hb), ?_, ?_⟩
      · intro b hb
        rcases List.mem_append.mp hb with hb | hb
        · exact keep b (inv.covered b hb)
        · cases List.mem_singleton.mp hb
          exact self
      · intro r hr
        rw [same]
        exact inv.moving r hr
    next => cases Option.some.inj h; exact inv
  | read now =>
    simp only [TsoTerm.step] at h
    split at h
    next => simp at h
    next =>
      cases Option.some.inj h
      exact ⟨inv.ordered, inv.covered, fun r hr => updateTimestamp_moving safe hr⟩
  | commit =>
    obtain ⟨r, hr, rfl⟩ := Option.map_eq_some_iff.mp h
    exact ⟨inv.ordered, fun b hb => covers_updateTso (inv.moving r hr) (inv.covered b hb),
      by simp⟩
  | lose =>
    obtain ⟨r, hr, rfl⟩ := Option.map_eq_some_iff.mp h
    exact ⟨inv.ordered, inv.covered, by simp⟩

/-- Blocks granted in one term ascend, as long as no update steps back exactly
onto the physical part in memory and no count overflows the logical part. -/
theorem term_grants_ascend (now : Int64) (obj : TsoObj) {s : TsoTerm}
    (h : Reach.From TsoTerm.step TermSafe (TsoTerm.start (onLeaderStart now obj) obj) s) :
    s.granted.Pairwise Block.Before ∧
      s.granted.Pairwise (fun b c => Disjoint b.values c.values) := by
  have inv : TermInv s := by
    apply h.invariant
    · exact ⟨List.Pairwise.nil, by simp [TsoTerm.start], by simp [TsoTerm.start]⟩
    · exact fun s e t _ inv safe hs => termInv_step inv safe hs
  exact ⟨inv.ordered, inv.ordered.imp Block.Before.disjoint⟩

theorem term_grants_ascend_across_update :
    ([⟨1, 0, 5⟩, ⟨1000, 0, 7⟩] : List (Block Int)).Pairwise Block.Before ∧
      ([⟨1, 0, 5⟩, ⟨1000, 0, 7⟩] : List (Block Int)).Pairwise
        (fun b c => Disjoint b.values c.values) := by
  have run : Reach.From TsoTerm.step TermSafe (TsoTerm.start (onLeaderStart 900 .init) .init)
      ⟨⟨⟨1000, 7⟩, 3900⟩, none, [⟨1, 0, 5⟩, ⟨1000, 0, 7⟩]⟩ :=
    Reach.From.of_checked
      (show [.gen 5, .read 1000, .commit, .gen 7].foldlM _ _ = some _ by decide)
  exact term_grants_ascend 900 .init run

/-- The clock steps back by one millisecond while the logical part is more than
half used up: the update resets the logical part at the same physical part. -/
def steppingBackEvents : List TsoTermEvent :=
  [.read 1000, .commit, .gen 131073, .read 999, .commit, .gen 1]

theorem stepping_back_regrants :
    ¬ ∀ (now : Int64) (obj : TsoObj) (s : TsoTerm),
      (updateTso (onLeaderStart now obj) obj).2.errcode = some .success →
      Reach.From TsoTerm.step PositiveCount (TsoTerm.start (onLeaderStart now obj) obj) s →
      s.granted.Pairwise Block.Before ∧
        s.granted.Pairwise (fun b c => Disjoint b.values c.values) := by
  intro always
  let final : TsoTerm := ⟨⟨⟨1000, 1⟩, 4000⟩, none, [⟨1000, 0, 131073⟩, ⟨1000, 0, 1⟩]⟩
  have run : steppingBackEvents.foldlM TsoTerm.step
      (TsoTerm.start (onLeaderStart 1000 .init) .init) = some final := by decide
  have allowed : ∀ s, ∀ e ∈ steppingBackEvents, PositiveCount s e := by
    simp [steppingBackEvents, PositiveCount]
  have disjoint := (always 1000 .init final (by decide) (Reach.From.of_foldlM allowed run)).2
  have apart := (List.pairwise_cons.mp disjoint).1 ⟨1000, 0, 1⟩ (by simp)
  exact Set.disjoint_left.mp apart
    (show toLex ((1000 : Int), (0 : Int)) ∈ _ from ⟨0, by simp, by simp, by simp⟩)
    ⟨0, by simp, by simp, by simp⟩

end EA
