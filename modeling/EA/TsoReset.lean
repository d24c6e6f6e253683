import EA.GenTso
import EA.TsoUnique

namespace EA

/-- The pairs that calls of `gen_tso` with positive counts hand out from here. -/
inductive Hands : TsoObj → ℤ ×ₗ ℤ → Prop
  | now {count : Int64} {obj obj' : TsoObj} {start : TsoTimestamp} {v : ℤ ×ₗ ℤ}
      (positive : 0 < count) (fits : NoLogicalOverflow count obj)
      (attempt : genTsoAttempt count obj = some (start, obj'))
      (mem : v ∈ (grantBlock start count).values) : Hands obj v
  | later {count : Int64} {obj obj' : TsoObj} {start : TsoTimestamp} {v : ℤ ×ₗ ℤ}
      (positive : 0 < count) (fits : NoLogicalOverflow count obj)
      (attempt : genTsoAttempt count obj = some (start, obj')) (rest : Hands obj' v) : Hands obj v

theorem maxLogical_toInt : maxLogical.toInt = 2 ^ 18 := by decide

/-- What a pass grants, in integers. -/
theorem attempt_toInt {count : Int64} {obj obj' : TsoObj} {start : TsoTimestamp}
    (positive : 0 < count) (fits : NoLogicalOverflow count obj)
    (attempt : genTsoAttempt count obj = some (start, obj')) :
    obj.currentTimestamp.physical ≠ 0 ∧ start = obj.currentTimestamp ∧ 0 < count.toInt ∧
      obj'.currentTimestamp.physical = obj.currentTimestamp.physical ∧
      obj'.currentTimestamp.logical.toInt = obj.currentTimestamp.logical.toInt + count.toInt ∧
      obj.currentTimestamp.logical.toInt + count.toInt < 2 ^ 18 := by
  obtain ⟨nonzero, below, rfl, rfl⟩ := genTsoAttempt_eq_some.mp attempt
  have sum := toInt_add_of_lt positive fits
  rw [Int64.lt_iff_toInt_lt, sum, maxLogical_toInt] at below
  exact ⟨nonzero, rfl, by simpa [Int64.lt_iff_toInt_lt] using positive, rfl, sum, below⟩

theorem Hands.above {obj : TsoObj} {v : ℤ ×ₗ ℤ} (h : Hands obj v) :
    obj.currentTimestamp.physical ≠ 0 ∧ ∃ l : Int,
      v = toLex (obj.currentTimestamp.physical.toInt, l) ∧
        obj.currentTimestamp.logical.toInt ≤ l := by
  induction h with
  | now positive fits attempt mem =>
    obtain ⟨nonzero, rfl, _⟩ := attempt_toInt positive fits attempt
    obtain ⟨i, nonneg, _, rfl⟩ := mem
    exact ⟨nonzero, _, rfl, by dsimp only [grantBlock]; omega⟩
  | later positive fits attempt rest ih =>
    obtain ⟨nonzero, _, _, physical, sum, _⟩ := attempt_toInt positive fits attempt
    obtain ⟨_, l, rfl, above⟩ := ih
    exact ⟨nonzero, l, by rw [physical], by omega⟩

/-- A pass for one timestamp. -/
theorem attempt_one {obj : TsoObj} (nonzero : obj.currentTimestamp.physical ≠ 0)
    (below : obj.currentTimestamp.logical.toInt + 1 < 2 ^ 18) :
    NoLogicalOverflow 1 obj ∧ ∃ obj', genTsoAttempt 1 obj = some (obj.currentTimestamp, obj') ∧
      obj'.currentTimestamp.physical = obj.currentTimestamp.physical ∧
      obj'.currentTimestamp.logical.toInt = obj.currentTimestamp.logical.toInt + 1 := by
  have one : (1 : Int64).toInt = 1 := by decide
  have fits : NoLogicalOverflow 1 obj := by
    unfold NoLogicalOverflow
    omega
  have sum := toInt_add_of_lt (by decide) fits
  have small : obj.currentTimestamp.logical + 1 < maxLogical := by
    rw [Int64.lt_iff_toInt_lt, sum, maxLogical_toInt]
    omega
  exact ⟨fits, _, genTsoAttempt_eq_some.mpr ⟨nonzero, small, rfl, rfl⟩, rfl, by rw [sum, one]⟩

/-- Every pair from the one in memory on is handed out, a timestamp at a time. -/
theorem hands_of_above {obj : TsoObj} {l : Int} (nonzero : obj.currentTimestamp.physical ≠ 0)
    (above : obj.currentTimestamp.logical.toInt ≤ l) (below : l + 1 < 2 ^ 18) :
    Hands obj (toLex (obj.currentTimestamp.physical.toInt, l)) := by
  obtain ⟨distance, gap⟩ : ∃ d : Nat, l = obj.currentTimestamp.logical.toInt + d :=
    ⟨(l - obj.currentTimestamp.logical.toInt).toNat, by omega⟩
  induction distance generalizing obj with
  | zero =>
    obtain ⟨fits, obj', attempt, _⟩ := attempt_one nonzero (by omega)
    refine .now (by decide) fits attempt ⟨0, le_refl 0, ?_, by rw [gap]; rfl⟩
    have one : (1 : Int64).toInt = 1 := by decide
    simp only [grantBlock, one]
    omega
  | succ distance ih =>
    obtain ⟨fits, obj', attempt, physical, logical⟩ := attempt_one nonzero (by omega)
    refine .later (by decide) fits attempt ?_
    rw [← physical] at nonzero ⊢
    exact ih nonzero (by omega) (by omega)

variable {ι : Type} [DecidableEq ι] {s : TsoCluster ι}

/-- The state of a member after it has applied a request. -/
def TsoCluster.afterReset (s : TsoCluster ι) (n : ι) (request : TsoRequest) : TsoNode :=
  ((s.members n).node.apply request).1

/-- After the reset the physical part lies within the bound, and a node that serves
hands out nothing that was granted before, by whichever leader. -/
structure ResetSafe (s : TsoCluster ι) (n : ι) (request : TsoRequest) : Prop where
  bound : (s.afterReset n request).obj.currentTimestamp.physical ≤
    (s.afterReset n request).obj.lastSavePhysical
  fresh : (s.afterReset n request).isLeader = true → (s.afterReset n request).isHealty = true →
    ∀ g ∈ s.granted, ∀ v ∈ g.block.values, ¬ Hands (s.afterReset n request).obj v

/-- A reset that passes the fallback test saves a bound that covers its physical part.
On a leader, no block granted at its physical part ends behind its logical part. -/
def ResetAhead (s : TsoCluster ι) (n : ι) (request : TsoRequest) : Prop :=
  request.moves = true → timeFallback request (s.members n).node.obj = false →
    request.current.physical ≤ request.save ∧
    ((s.members n).node.isLeader = true → request.current.physical ≠ 0 → ∀ g ∈ s.granted,
      g.block.first = request.physical →
        g.block.start + g.block.count ≤ request.current.logical.toInt)

/-- Granted blocks are not empty and end inside the logical range. -/
def GrantsFit (s : TsoCluster ι) : Prop :=
  ∀ g ∈ s.granted, 0 < g.block.count ∧ g.block.start + g.block.count < 2 ^ 18

/-- Nothing but a pass of `gen_tso` adds a grant. -/
theorem step_granted {t : TsoCluster ι} {e : TsoClusterEvent ι} (h : s.step e = some t) :
    t.granted = s.granted ∨ ∃ n i call start obj, e = .gen n i ∧
      (s.members n).node.calls[i]? = some call ∧ call.phase ≠ .accepted ∧
      genTsoAttempt call.count (s.members n).node.obj = some (start, obj) ∧
      t.granted = s.granted ++ [⟨(s.members n).node.term, grantBlock start call.count⟩] := by
  cases e with
  | gen n i =>
    obtain ⟨call, hc, h⟩ := Option.bind_eq_some_iff.mp h
    obtain ⟨⟨node, answer⟩, hn, h⟩ := Option.bind_eq_some_iff.mp h
    dsimp only at h
    split at h
    next start obj out =>
      obtain ⟨looping, attempt⟩ := genTsoStep_grant out
      cases Option.some.inj h
      exact Or.inr ⟨n, i, call, start, obj, rfl, hc, looping, attempt, rfl⟩
    next =>
      cases Option.some.inj h
      exact Or.inl rfl
  | elect | leaderStart =>
    obtain ⟨_, h⟩ := Option.ite_none_right_eq_some.mp h
    cases h
    exact Or.inl rfl
  | stopTimer | leaderStop | timer | syncFail =>
    obtain ⟨_, _, rfl⟩ := Option.map_eq_some_iff.mp h
    exact Or.inl rfl
  | runClosure n i =>
    obtain ⟨c, _, h⟩ := Option.bind_eq_some_iff.mp h
    obtain ⟨node, _, h⟩ := Option.bind_eq_some_iff.mp h
    split at h
    all_goals
      cases Option.some.inj h
      exact Or.inl rfl
  | request n request =>
    simp only [TsoCluster.step] at h
    split at h
    all_goals
      cases Option.some.inj h
      exact Or.inl rfl
  | proposeUpdate n =>
    obtain ⟨_, _, h⟩ := Option.bind_eq_some_iff.mp h
    cases h
    exact Or.inl rfl
  | commit | apply | loadSnapshot =>
    obtain ⟨_, _, h⟩ := Option.bind_eq_some_iff.mp h
    obtain ⟨_, h⟩ := Option.ite_none_right_eq_some.mp h
    cases h
    exact Or.inl rfl
  | saveSnapshot | restart =>
    cases h
    exact Or.inl rfl

theorem reachable_grantsFit (h : Reach.From TsoCluster.step ClusterSafe .init s) :
    GrantsFit s := by
  refine h.invariant (I := GrantsFit) (by simp [GrantsFit, TsoCluster.init]) ?_
  intro s e t _ fit safe step
  rcases step_granted step with same | ⟨n, i, call, start, obj, rfl, hc, looping, attempt, more⟩
  · unfold GrantsFit
    rw [same]
    exact fit
  · obtain ⟨_, _, positive, noOverflow⟩ := safe call hc looping
    obtain ⟨_, rfl, more', _, _, below⟩ := attempt_toInt positive noOverflow attempt
    intro g hg
    rw [more] at hg
    rcases List.mem_append.mp hg with old | new
    · exact fit g old
    · cases List.mem_singleton.mp new
      exact ⟨more', below⟩

omit [DecidableEq ι] in
/-- A serving leader's pair lies behind every block granted at its physical part. -/
theorem ClusterInv.behind (inv : ClusterInv s) {n : ι}
    (leads : (s.members n).node.isLeader = true) (healty : (s.members n).node.isHealty = true)
    {g : TsoGrant} (hg : g ∈ s.granted)
    (same : g.block.first = (s.members n).node.obj.currentTimestamp.physical.toInt) :
    g.block.start + g.block.count ≤
      (s.members n).node.obj.currentTimestamp.logical.toInt := by
  have leading : (s.members n).node.role ≠ .follower := by
    intro follower
    rw [(inv.members n).flag follower] at leads
    cases leads
  have leader := inv.leaders n leading
  have owned := (leader.serving leads).resolve_right (by simp [healty])
  rcases leader.window g hg (inv.term_of_first owned hg same) with less | ⟨_, behind⟩
  · omega
  · exact behind

omit [DecidableEq ι] in
/-- No granted pair is handed out again exactly when the pair in memory lies behind
the blocks granted at its physical part. -/
theorem regrants_iff {obj : TsoObj} (fit : GrantsFit s) :
    (∀ g ∈ s.granted, ∀ v ∈ g.block.values, ¬ Hands obj v) ↔
      (obj.currentTimestamp.physical ≠ 0 → ∀ g ∈ s.granted,
        g.block.first = obj.currentTimestamp.physical.toInt →
          g.block.start + g.block.count ≤ obj.currentTimestamp.logical.toInt) := by
  constructor
  · intro fresh nonzero g hg same
    by_contra short
    obtain ⟨positive, below⟩ := fit g hg
    -- the last timestamp of the block is handed out again
    refine fresh g hg (toLex (g.block.first, g.block.start + g.block.count - 1))
      ⟨g.block.count - 1, by omega, by omega, by rw [add_sub_assoc]⟩ ?_
    rw [same]
    exact hands_of_above nonzero (by omega) (by omega)
  · intro behind g hg v hv hands
    obtain ⟨nonzero, l, eq, above⟩ := hands.above
    obtain ⟨i, _, inside, rfl⟩ := hv
    obtain ⟨same, logical⟩ := Prod.mk.inj (toLex.injective eq)
    have stop := behind nonzero g hg same
    omega

/-- In every run that keeps clear of the other ways to grant twice, a reset without
force is safe if and only if it is refused or lies ahead of the grants. -/
theorem unforced_reset_safe_iff (h : Reach.From TsoCluster.step ClusterSafe .init s) (n : ι)
    {request : TsoRequest} (op : request.opType = .opResetTso) (unforced : request.force = false) :
    ResetSafe s n request ↔ ResetAhead s n request := by
  have inv : ClusterInv s := by
    apply h.invariant
    · exact clusterInv_init
    · exact fun s e t _ inv safe hs => clusterInv_step inv safe hs
  have fit := reachable_grantsFit h
  have leads : (s.afterReset n request).isLeader = (s.members n).node.isLeader := rfl
  have obj : (s.afterReset n request).obj =
      (tsoApply request (s.members n).node.obj (s.members n).node.isHealty).1 := rfl
  have healty : (s.afterReset n request).isHealty =
      (tsoApply request (s.members n).node.obj (s.members n).node.isHealty).2.1 := rfl
  rcases tsoApply_cases (s.members n).node.obj (s.members n).node.isHealty
      (fun _ => unforced) with ⟨same, well, _, refused⟩ | ⟨moves, pass, next, well⟩
  · rw [same] at obj
    rw [well] at healty
    refine iff_of_true ⟨?_, ?_⟩ ?_
    · rw [obj, Int64.le_iff_toInt_le]
      exact (inv.members n).low
    · rw [leads, healty, obj]
      intro serves fine
      exact (regrants_iff fit).mpr fun _ g hg first => inv.behind serves fine hg first
    · intro moves pass
      rw [refused moves] at pass
      cases pass
  · rw [next] at obj
    have fine : (s.afterReset n request).isHealty = true := by
      rw [healty, well]
      simp [op]
    constructor
    · intro safe _ _
      have bound := safe.bound
      rw [obj] at bound
      refine ⟨bound, fun serves => ?_⟩
      have fresh := safe.fresh (leads.trans serves) fine
      rw [obj] at fresh
      exact (regrants_iff fit).mp fresh
    · intro ahead
      obtain ⟨bound, behind⟩ := ahead moves pass
      refine ⟨?_, fun serves _ => ?_⟩
      · rw [obj]
        exact bound
      · rw [obj]
        exact (regrants_iff fit).mpr (behind (leads.symm.trans serves))

/-- A leader that has granted the five timestamps (1, 0) to (1, 4). -/
def servingEvents : List (TsoClusterEvent Bool) := handoverEvents.take 10

def resetTo (current : TsoTimestamp) (savePhysical : Int64) : TsoRequest :=
  { opType := .opResetTso, currentTimestamp := some current, savePhysical := some savePhysical }

theorem reset_forward_safe :
    ∃ s : TsoCluster Bool, s.granted = [⟨1, ⟨1, 0, 5⟩⟩] ∧
      ResetSafe s false (resetTo ⟨2000, 0⟩ 5000) := by
  have run : (servingEvents.foldlM
      (fun s e => if ClusterSafe s e then TsoCluster.step s e else none) .init).map
        TsoCluster.granted = some [⟨1, ⟨1, 0, 5⟩⟩] := by decide
  obtain ⟨s, hs, granted⟩ := Option.map_eq_some_iff.mp run
  have ahead : ResetAhead s false (resetTo ⟨2000, 0⟩ 5000) := by
    refine fun _ _ => ⟨by decide, fun _ _ g hg first => ?_⟩
    rw [granted] at hg
    cases List.mem_singleton.mp hg
    exact absurd first (by decide)
  exact ⟨s, granted, (unforced_reset_safe_iff (Reach.From.of_checked hs) false rfl rfl).mpr ahead⟩

/-- The same leader is reset to (1, 0), which equals its physical part. -/
theorem reset_regrants :
    ¬ ∀ (s : TsoCluster Bool) (n : Bool) (request : TsoRequest),
      Reach.From TsoCluster.step ClusterSafe .init s →
      request.opType = .opResetTso → request.force = false → ResetSafe s n request := by
  intro safe
  have run : (servingEvents.foldlM
      (fun s e => if ClusterSafe s e then TsoCluster.step s e else none) .init).map
        (fun s => (s.granted, (s.afterReset false (resetTo ⟨1, 0⟩ 4000)).isLeader,
          (s.afterReset false (resetTo ⟨1, 0⟩ 4000)).isHealty,
          (s.afterReset false (resetTo ⟨1, 0⟩ 4000)).obj)) =
      some ([⟨1, ⟨1, 0, 5⟩⟩], true, true, ⟨⟨1, 0⟩, 4000⟩) := by decide
  obtain ⟨s, hs, eq⟩ := Option.map_eq_some_iff.mp run
  obtain ⟨granted, eq⟩ := Prod.mk.inj eq
  obtain ⟨leads, eq⟩ := Prod.mk.inj eq
  obtain ⟨healty, obj⟩ := Prod.mk.inj eq
  have reset := safe s false (resetTo ⟨1, 0⟩ 4000) (Reach.From.of_checked hs) rfl rfl
  refine reset.fresh leads healty ⟨1, ⟨1, 0, 5⟩⟩ (by simp [granted]) (toLex (1, 0)) ?_ ?_
  · exact ⟨0, le_refl 0, by decide, rfl⟩
  · rw [obj]
    exact hands_of_above (by decide) (by decide) (by decide)

end EA
