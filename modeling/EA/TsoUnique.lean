import EA.TsoClusterInv

namespace EA

theorem gen_cases {node node' : TsoNode} {i : Nat} {call : GenTsoCall}
    {answer : Option TsoResponse} (hc : node.calls[i]? = some call)
    (h : node.gen i = some (node', answer)) :
    (∃ response, genTsoStep call node.isHealty node.obj = .answer response ∧
      node' = { node with calls := node.calls.eraseIdx i }) ∨
    (∃ start obj, genTsoStep call node.isHealty node.obj = .grant start obj ∧
      node' = { node with obj := obj, calls := node.calls.eraseIdx i }) ∨
    (∃ left, genTsoStep call node.isHealty node.obj = .again left ∧
      node' = { node with calls := node.calls.set i { call with phase := .looping left } }) := by
  simp only [TsoNode.gen, hc, Option.bind_eq_bind, Option.bind_some] at h
  split at h
  next response hs => cases Option.some.inj h; exact Or.inl ⟨response, hs, rfl⟩
  next start obj hs => cases Option.some.inj h; exact Or.inr (Or.inl ⟨start, obj, hs, rfl⟩)
  next left hs => cases Option.some.inj h; exact Or.inr (Or.inr ⟨left, hs, rfl⟩)

theorem genTsoStep_again {call : GenTsoCall} {isHealty : Bool} {obj : TsoObj} {left : Nat}
    (h : genTsoStep call isHealty obj = .again left) :
    isHealty = true ∨ call.phase ≠ .accepted := by
  cases hp : call.phase with
  | looping n => exact Or.inr (by simp)
  | accepted =>
    left
    by_contra sick
    have sick : isHealty = false := by simpa using sick
    simp only [genTsoStep, hp, genTsoCheck, sick] at h
    split at h
    next => simp at h
    next hn => split at hn <;> simp at hn

theorem genTsoStep_grant {call : GenTsoCall} {isHealty : Bool} {obj obj' : TsoObj}
    {start : TsoTimestamp} (h : genTsoStep call isHealty obj = .grant start obj') :
    call.phase ≠ .accepted ∧ genTsoAttempt call.count obj = some (start, obj') := by
  cases hp : call.phase with
  | accepted =>
    simp only [genTsoStep, hp] at h
    split at h <;> simp at h
  | looping left =>
    simp only [genTsoStep, hp] at h
    split at h
    next t o ha =>
      cases h
      exact ⟨by simp, ha⟩
    next => split at h <;> simp at h

variable {ι : Type}

theorem MemberInv.waitGen {log : List (TsoEntry ι)} {m : TsoMember} {i : Nat}
    {call : GenTsoCall} (inv : MemberInv log m) (hc : m.node.calls[i]? = some call)
    (phase : GenTsoPhase) :
    MemberInv log { m with
      node := { m.node with calls := m.node.calls.set i { call with phase := phase } } } := by
  refine inv.setNode rfl rfl (fun c hc => ⟨c, hc, rfl, rfl⟩) inv.update ?_ inv.flag
  intro other ho
  rcases List.mem_or_eq_of_mem_set ho with old | rfl
  · exact inv.calls other old
  · exact inv.calls call (List.mem_of_getElem? hc)

theorem LeaderInv.waitGen {log : List (TsoEntry ι)} {granted : List TsoGrant} {m : TsoMember}
    {i : Nat} {call : GenTsoCall} {left : Nat} (inv : LeaderInv log granted m)
    (hc : m.node.calls[i]? = some call)
    (again : genTsoStep call m.node.isHealty m.node.obj = .again left) :
    LeaderInv log granted { m with
      node := { m.node with
        calls := m.node.calls.set i { call with phase := .looping left } } } := by
  have here : call ∈ m.node.calls := List.mem_of_getElem? hc
  refine ⟨inv.later, inv.synced, inv.storing, inv.serving, ?_, ?_, inv.window⟩
  · intro other ho term
    rcases List.mem_or_eq_of_mem_set ho with old | rfl
    · exact inv.accepted other old term
    · exact inv.accepted call here term
  · intro other ho term phase
    rcases List.mem_or_eq_of_mem_set ho with old | rfl
    · exact inv.looping other old term phase
    · -- the health flag is looked at once, before the first pass
      rcases genTsoStep_again again with healty | looping
      · have serving := inv.serving (inv.accepted call here term)
        exact serving.resolve_right (by simp [healty])
      · exact inv.looping call here term looping

theorem MemberInv.dropGen {log : List (TsoEntry ι)} {m : TsoMember} (inv : MemberInv log m)
    (i : Nat) {obj : TsoObj}
    (physical : obj.currentTimestamp.physical = m.node.obj.currentTimestamp.physical)
    (save : obj.lastSavePhysical = m.node.obj.lastSavePhysical) :
    MemberInv log { m with
      node := { m.node with obj := obj, calls := m.node.calls.eraseIdx i } } := by
  constructor
  case save_nonneg => simpa only [save] using inv.save_nonneg
  case save_lt => simpa only [save] using inv.save_lt
  case nonneg => simpa only [physical] using inv.nonneg
  case within => exact inv.within
  case bounded => simpa only [save] using inv.bounded
  case source => simpa only [physical] using inv.source
  case term => exact inv.term
  case closures => exact inv.closures
  case update => exact inv.update
  case calls => exact fun call hc => inv.calls call (List.mem_of_mem_eraseIdx hc)
  case flag => exact inv.flag

theorem Owned.of_physical {log : List (TsoEntry ι)} {term : Nat} {obj obj' : TsoObj}
    (h : Owned log term obj)
    (physical : obj'.currentTimestamp.physical = obj.currentTimestamp.physical) :
    Owned log term obj' := by
  obtain ⟨above, sourced⟩ := h
  rw [← physical] at above sourced
  exact ⟨above, sourced⟩

theorem LeaderInv.dropGen {log : List (TsoEntry ι)} {granted granted' : List TsoGrant}
    {m : TsoMember} (inv : LeaderInv log granted m) (i : Nat) {obj : TsoObj}
    (physical : obj.currentTimestamp.physical = m.node.obj.currentTimestamp.physical)
    (window : ∀ g ∈ granted', g.term = m.node.term → obj.covers g.block) :
    LeaderInv log granted' { m with
      node := { m.node with obj := obj, calls := m.node.calls.eraseIdx i } } := by
  refine ⟨inv.later, ?_, ?_, ?_, ?_, ?_, window⟩
  · exact fun c hc term phase => (inv.synced c hc term phase).of_physical physical
  · exact fun c hc term phase =>
      (inv.storing c hc term phase).imp_left (Owned.of_physical · physical)
  · exact fun flag => (inv.serving flag).imp_left (Owned.of_physical · physical)
  · exact fun call hc term => inv.accepted call (List.mem_of_mem_eraseIdx hc) term
  · exact fun call hc term phase =>
      (inv.looping call (List.mem_of_mem_eraseIdx hc) term phase).of_physical physical

theorem MemberInv.leaderStart {log : List (TsoEntry ι)} {m : TsoMember} {now : Int64}
    (inv : MemberInv log m) (clock : ClockInRange now) (newer : m.node.term < m.term)
    (earlier : ∀ e ∈ log.drop m.applied, m.term ≤ e.term)
    (safe : ¬ m.node.obj.lastSavePhysical - now < updateTimestampIntervalMs →
      AboveEarlier log m.term now.toInt) :
    MemberInv log { m with node := m.node.leaderStart m.term now } := by
  have bounded : ∀ e ∈ log, e.request.moves = true → e.term < m.term →
      e.request.physical ≤ m.node.obj.lastSavePhysical.toInt := by
    intro e he moves old
    rw [← List.take_append_drop m.applied log] at he
    rcases List.mem_append.mp he with applied | rest
    · exact inv.bounded e applied moves
    · have := earlier e rest
      omega
  refine ⟨inv.save_nonneg, inv.save_lt, inv.nonneg, inv.within, inv.bounded, inv.source,
    le_rfl, ?_, inv.update, ?_, by simp [TsoNode.leaderStart]⟩
  · intro c hc
    rcases List.mem_append.mp hc with old | new
    · obtain ⟨term, rest⟩ := inv.closures c old
      exact ⟨term.trans newer.le, rest⟩
    · cases List.mem_singleton.mp new
      exact ⟨le_rfl, onLeaderStart_moves _ _,
        onLeaderStart_covered clock inv.save_nonneg inv.save_lt,
        onLeaderStart_above inv.save_lt inv.save_nonneg bounded safe⟩
  · exact fun call hc => (inv.calls call hc).trans newer.le

theorem LeaderInv.leaderStart {log : List (TsoEntry ι)} {granted : List TsoGrant}
    {m : TsoMember} {now : Int64} (inv : MemberInv log m) (idle : m.node.role = .follower)
    (newer : m.node.term < m.term) (earlier : ∀ e ∈ log.drop m.applied, m.term ≤ e.term)
    (unused : ∀ g ∈ granted, g.term ≠ m.term) :
    LeaderInv log granted { m with node := m.node.leaderStart m.term now } := by
  have off := inv.flag idle
  have oldClosure : ∀ c ∈ m.node.closures, c.term ≠ m.term := by
    intro c hc
    have := (inv.closures c hc).1
    omega
  have oldCall : ∀ call ∈ m.node.calls, call.term ≠ m.term := by
    intro call hc
    have := inv.calls call hc
    omega
  refine ⟨earlier, ?_, ?_, ?_, ?_, ?_, ?_⟩
  · intro c hc term phase
    rcases List.mem_append.mp hc with old | new
    · exact absurd term (oldClosure c old)
    · cases List.mem_singleton.mp new
      simp at phase
  · intro c hc term phase
    rcases List.mem_append.mp hc with old | new
    · exact absurd term (oldClosure c old)
    · cases List.mem_singleton.mp new
      simp at phase
  · exact fun on => absurd (off.symm.trans on) (by decide)
  · exact fun call hc term => absurd term (oldCall call hc)
  · exact fun call hc term => absurd term (oldCall call hc)
  · exact fun g hg term => absurd term (unused g hg)

theorem MemberInv.restart {log : List (TsoEntry ι)} {m : TsoMember} (inv : MemberInv log m) :
    MemberInv log { m with node := m.node.restart, applied := 0 } := by
  constructor
  case term => exact inv.term
  case within => exact Nat.zero_le _
  case source => exact Or.inl rfl
  all_goals simp [TsoNode.restart, TsoNode.init, TsoObj.init]

/-- A snapshot brings the bound but not the pair, which only its own applied
entries justify. -/
theorem MemberInv.loadSnapshot {log : List (TsoEntry ι)} {m : TsoMember} {applied : Nat}
    {save : Int64} (inv : MemberInv log m) (newer : m.applied ≤ applied)
    (within : applied ≤ log.length) (nonneg : 0 ≤ save.toInt) (lt : save.toInt < 2 ^ 62)
    (bounded : ∀ e ∈ log.take applied, e.request.moves = true → e.request.physical ≤ save.toInt) :
    MemberInv log { m with
      node := { m.node with obj := loadTso save m.node.obj }
      applied := applied } := by
  refine ⟨nonneg, lt, inv.nonneg, within, bounded, ?_, inv.term, inv.closures, inv.update,
    inv.calls, inv.flag⟩
  refine inv.source.imp_right ?_
  intro ⟨e, he, rest⟩
  exact ⟨e, List.take_subset_take_left _ newer he, rest⟩

variable {s : TsoCluster ι}

theorem ClusterInv.propose (inv : ClusterInv s) {n : ι} {closure : Option Nat}
    {request : TsoRequest} (covered : Covered request)
    (tagged : ∀ p, closure = some p → p ≤ s.fence ∧ AboveEarlier s.log p request.physical) :
    ClusterInv (s.propose n closure request) := by
  refine { inv with entries := ?_ }
  intro e he
  rcases he with he | he
  · rcases List.mem_append.mp he with old | new
    · exact inv.entries e (Or.inl old)
    · cases List.mem_singleton.mp new
      exact ⟨covered, tagged⟩
  · exact inv.entries e (Or.inr he)

theorem ClusterInv.commit (inv : ClusterInv s) {k : Nat} {e : TsoEntry ι}
    (he : s.inflight[k]? = some e) (newer : s.fence ≤ e.term) :
    ClusterInv { s with
      inflight := s.inflight.eraseIdx k
      log := s.log ++ [e]
      fence := e.term } := by
  have later : ∀ n, (s.members n).node.term ≤ e.term := fun n => (inv.fence n).trans newer
  refine ⟨?_, ?_, later, inv.started, inv.elected, inv.winners, ?_, ?_, ?_, inv.granters,
    inv.disjoint⟩
  · exact fun n => (inv.members n).append (later n)
  · exact fun n leading => (inv.leaders n leading).append (inv.members n).within (later n)
  · intro e' he'
    have old : e' ∈ s.inflight ∨ e' ∈ s.log := by
      rcases he' with he' | he'
      · exact Or.inl (List.mem_of_mem_eraseIdx he')
      · rcases List.mem_append.mp he' with old | new
        · exact Or.inr old
        · cases List.mem_singleton.mp new
          exact Or.inl (List.mem_of_getElem? he)
    obtain ⟨covered, tagged⟩ := inv.entries e' old
    refine ⟨covered, fun p hp => ?_⟩
    obtain ⟨le, above⟩ := tagged p hp
    exact ⟨le.trans newer, above.append (le.trans newer)⟩
  · intro p hp
    obtain ⟨within, nonneg, lt, bounded⟩ := inv.snapshots p hp
    refine ⟨?_, nonneg, lt, ?_⟩
    · simp only [List.length_append]
      omega
    · rwa [List.take_append_of_le_length within]
  · intro g hg
    obtain ⟨le, above, e', he', rest⟩ := inv.grants g hg
    exact ⟨le.trans newer, above.append (le.trans newer), e', List.mem_append_left _ he', rest⟩

theorem ClusterInv.winner_unique (inv : ClusterInv s) {term : Nat} {n k : ι}
    (hn : (term, n) ∈ s.elections) (hk : (term, k) ∈ s.elections) : n = k :=
  (Prod.mk.inj (List.inj_on_of_nodup_map inv.winners hn hk rfl)).2

/-- Grants of different terms differ in the physical part, whichever came first. -/
theorem ClusterInv.term_of_first (inv : ClusterInv s) {n : ι}
    (owned : Owned s.log (s.members n).node.term (s.members n).node.obj) {g : TsoGrant}
    (hg : g ∈ s.granted)
    (same : g.block.first = (s.members n).node.obj.currentTimestamp.physical.toInt) :
    g.term = (s.members n).node.term := by
  obtain ⟨_, above, e, he, moves, term, eq⟩ := inv.grants g hg
  rcases lt_trichotomy g.term (s.members n).node.term with lt | here | gt
  · have less := owned.above e he moves (by omega)
    omega
  · exact here
  · obtain ⟨e', he', moves', term', eq'⟩ := owned.sourced
    have less := above e' he' moves' (by omega)
    omega

theorem ClusterInv.addGrant (inv : ClusterInv s) {n : ι} {b : Block Int}
    (leading : (s.members n).node.role ≠ .follower)
    (owned : Owned s.log (s.members n).node.term (s.members n).node.obj)
    (self : (s.members n).node.obj.covers b)
    (first : b.first = (s.members n).node.obj.currentTimestamp.physical.toInt)
    (apart : ∀ g ∈ s.granted, g.term = (s.members n).node.term →
      Disjoint g.block.values b.values) :
    ClusterInv { s with granted := s.granted ++ [⟨(s.members n).node.term, b⟩] } := by
  refine { inv with leaders := ?_, grants := ?_, granters := ?_, disjoint := ?_ }
  · intro k leads
    refine { inv.leaders k leads with window := ?_ }
    intro g hg term
    rcases List.mem_append.mp hg with old | new
    · exact (inv.leaders k leads).window g old term
    · cases List.mem_singleton.mp new
      have won := inv.started k leads
      rw [← term] at won
      have same : k = n := inv.winner_unique won (inv.started n leading)
      subst k
      exact self
  · intro g hg
    rcases List.mem_append.mp hg with old | new
    · exact inv.grants g old
    · cases List.mem_singleton.mp new
      refine ⟨inv.fence n, ?_, ?_⟩
      · simpa only [first] using owned.above
      · simpa only [first] using owned.sourced
  · intro g hg
    rcases List.mem_append.mp hg with old | new
    · exact inv.granters g old
    · cases List.mem_singleton.mp new
      exact ⟨n, inv.started n leading, le_rfl⟩
  · refine List.pairwise_append.mpr ⟨inv.disjoint, List.pairwise_singleton _ _, ?_⟩
    intro g hg g' new
    cases List.mem_singleton.mp new
    by_cases same : g.block.first = (s.members n).node.obj.currentTimestamp.physical.toInt
    · exact apart g hg (inv.term_of_first owned hg same)
    · exact Block.disjoint_of_first_ne (by rw [first]; exact same)

theorem clusterInv_init : ClusterInv (.init : TsoCluster ι) := by
  constructor
  case members =>
    intro n
    constructor
    case source => exact Or.inl rfl
    all_goals simp [TsoCluster.init, TsoNode.init, TsoObj.init]
  all_goals simp [TsoCluster.init, TsoNode.init]

variable [DecidableEq ι]

theorem setMember_members (n : ι) (m : TsoMember) :
    (s.setMember n m).members = Function.update s.members n m := rfl

/-- A member may only move forward in its term, within the fence. -/
theorem ClusterInv.setMember (inv : ClusterInv s) {n : ι} {m : TsoMember}
    (member : MemberInv s.log m)
    (leader : m.node.role ≠ .follower → LeaderInv s.log s.granted m)
    (fence : m.node.term ≤ s.fence) (newer : (s.members n).node.term ≤ m.node.term)
    (started : m.node.role ≠ .follower → (m.node.term, n) ∈ s.elections)
    (elected : m.term ≠ 0 → (m.term, n) ∈ s.elections) : ClusterInv (s.setMember n m) := by
  refine { inv with members := ?_, leaders := ?_, fence := ?_, started := ?_, elected := ?_,
                    granters := ?_ }
  · exact (Function.forall_update_iff s.members (p := fun _ m => MemberInv s.log m)).mpr
      ⟨member, fun k _ => inv.members k⟩
  · exact (Function.forall_update_iff s.members
      (p := fun _ m => m.node.role ≠ .follower → LeaderInv s.log s.granted m)).mpr
      ⟨leader, fun k _ => inv.leaders k⟩
  · exact (Function.forall_update_iff s.members (p := fun _ m => m.node.term ≤ s.fence)).mpr
      ⟨fence, fun k _ => inv.fence k⟩
  · exact (Function.forall_update_iff s.members
      (p := fun k m => m.node.role ≠ .follower → (m.node.term, k) ∈ s.elections)).mpr
      ⟨started, fun k _ => inv.started k⟩
  · exact (Function.forall_update_iff s.members
      (p := fun k m => m.term ≠ 0 → (m.term, k) ∈ s.elections)).mpr
      ⟨elected, fun k _ => inv.elected k⟩
  · intro g hg
    obtain ⟨k, won, le⟩ := inv.granters g hg
    refine ⟨k, won, ?_⟩
    rw [setMember_members]
    by_cases hk : k = n
    · subst k
      rw [Function.update_self]
      exact le.trans newer
    · rwa [Function.update_of_ne hk]

/-- The same for a step of the state machine that stays in its leadership. -/
theorem ClusterInv.setNode (inv : ClusterInv s) {n : ι} {node : TsoNode}
    (member : MemberInv s.log { s.members n with node := node })
    (leader : node.role ≠ .follower →
      LeaderInv s.log s.granted { s.members n with node := node })
    (term : node.term = (s.members n).node.term)
    (role : node.role ≠ .follower → (s.members n).node.role ≠ .follower) :
    ClusterInv (s.setNode n node) := by
  refine inv.setMember member leader ?_ ?_ ?_ (inv.elected n)
  · simpa only [term] using inv.fence n
  · exact term.ge
  · intro leading
    simpa only [term] using inv.started n (role leading)

theorem ClusterInv.elect (inv : ClusterInv s) {n : ι} {term : Nat}
    (newer : (s.members n).term < term) (unused : ∀ p ∈ s.elections, p.1 ≠ term) :
    ClusterInv { s.setMember n { s.members n with term := term } with
      elections := (term, n) :: s.elections } := by
  have keep : ∀ p ∈ s.elections, p ∈ (term, n) :: s.elections :=
    fun p hp => List.mem_cons_of_mem _ hp
  have fresh : term ∉ s.elections.map Prod.fst := by
    intro used
    obtain ⟨p, hp, eq⟩ := List.mem_map.mp used
    exact unused p hp eq
  have wider : ClusterInv { s with elections := (term, n) :: s.elections } :=
    { inv with
      started := fun k leading => keep _ (inv.started k leading)
      elected := fun k nonzero => keep _ (inv.elected k nonzero)
      winners := List.nodup_cons.mpr ⟨fresh, inv.winners⟩
      granters := fun g hg => (inv.granters g hg).imp fun _ h => ⟨keep _ h.1, h.2⟩ }
  have member := inv.members n
  exact wider.setMember { member with term := member.term.trans newer.le }
    (fun leading => { inv.leaders n leading with }) (inv.fence n) le_rfl
    (fun leading => keep _ (inv.started n leading)) (fun _ => List.mem_cons_self)

theorem ClusterInv.leaderStart (inv : ClusterInv s) {n : ι} {now : Int64}
    (clock : ClockInRange now) (idle : (s.members n).node.role = .follower)
    (newer : (s.members n).node.term < (s.members n).term)
    (earlier : ∀ e ∈ s.log.drop (s.members n).applied, (s.members n).term ≤ e.term)
    (safe : ¬ (s.members n).node.obj.lastSavePhysical - now < updateTimestampIntervalMs →
      AboveEarlier s.log (s.members n).term now.toInt) :
    ClusterInv { s.setNode n ((s.members n).node.leaderStart (s.members n).term now) with
      fence := max s.fence (s.members n).term } := by
  have won : ((s.members n).term, n) ∈ s.elections := inv.elected n (by omega)
  have unused : ∀ g ∈ s.granted, g.term ≠ (s.members n).term := by
    intro g hg eq
    obtain ⟨k, wonBy, le⟩ := inv.granters g hg
    have same : k = n := inv.winner_unique (eq ▸ wonBy) won
    subst k
    omega
  have raised : ClusterInv { s with fence := max s.fence (s.members n).term } :=
    { inv with
      fence := fun k => (inv.fence k).trans (le_max_left _ _)
      entries := fun e he => ⟨(inv.entries e he).1, fun p hp =>
        ((inv.entries e he).2 p hp).imp_left fun le => le.trans (le_max_left _ _)⟩
      grants := fun g hg => (inv.grants g hg).imp_left fun le => le.trans (le_max_left _ _) }
  exact raised.setMember ((inv.members n).leaderStart clock newer earlier safe)
    (fun _ => LeaderInv.leaderStart (inv.members n) idle newer earlier unused)
    (le_max_right _ _) newer.le (fun _ => won) (inv.elected n)

theorem setNode_self (n : ι) (node : TsoNode) :
    (s.setNode n node).members n = { s.members n with node := node } :=
  Function.update_self ..

theorem ClusterInv.grant (inv : ClusterInv s) {n : ι} (i : Nat) {count : Int64}
    {start : TsoTimestamp} {obj : TsoObj}
    (attempt : genTsoAttempt count (s.members n).node.obj = some (start, obj))
    (leading : (s.members n).node.role ≠ .follower)
    (owned : Owned s.log (s.members n).node.term (s.members n).node.obj) (pos : 0 < count)
    (fits : NoLogicalOverflow count (s.members n).node.obj) :
    ClusterInv
      { s.setNode n
          { (s.members n).node with
            obj := obj, calls := (s.members n).node.calls.eraseIdx i } with
        granted := s.granted ++ [⟨(s.members n).node.term, grantBlock start count⟩] } := by
  obtain ⟨self, keep, below⟩ := covers_attempt attempt pos fits
  obtain ⟨_, _, first, eq⟩ := genTsoAttempt_eq_some.mp attempt
  have physical : obj.currentTimestamp.physical =
      (s.members n).node.obj.currentTimestamp.physical := by rw [eq]
  have save : obj.lastSavePhysical = (s.members n).node.obj.lastSavePhysical := by rw [eq]
  have leader := inv.leaders n leading
  have moved := inv.setNode ((inv.members n).dropGen i physical save)
    (fun _ => leader.dropGen i physical fun g hg term => keep _ (leader.window g hg term))
    rfl id
  have here := setNode_self (s := s) n
    { (s.members n).node with obj := obj, calls := (s.members n).node.calls.eraseIdx i }
  have added := moved.addGrant (n := n) (b := grantBlock start count) (by rw [here]; exact leading)
    (by rw [here]; exact owned.of_physical physical) (by rw [here]; exact self)
    (by rw [here, physical]; exact congrArg (fun t => t.physical.toInt) first)
    (by
      rw [here]
      exact fun g hg term =>
        (Block.before_of_below (below _ (leader.window g hg term))).disjoint)
  rwa [here] at added

theorem ClusterInv.runClosure (inv : ClusterInv s) {n : ι} {i : Nat} {t : TsoCluster ι}
    (safe : ClusterSafe s (.runClosure n i)) (h : s.step (.runClosure n i) = some t) :
    ClusterInv t := by
  obtain ⟨c, hc, h⟩ := Option.bind_eq_some_iff.mp h
  obtain ⟨node, hn, h⟩ := Option.bind_eq_some_iff.mp h
  obtain ⟨_, _, _, _, _, role⟩ := runClosure_cases hn
  have stores := safe c hc
  have term : node.term = (s.members n).node.term := runClosure_term hn
  have moved : ClusterInv (s.setNode n node) := by
    refine inv.setNode ((inv.members n).runClosure hc hn fun storing => (stores storing).1) ?_ term
      fun leading => role ▸ leading
    intro leading
    exact (inv.leaders n (role ▸ leading)).runClosure hc hn fun storing => (stores storing).2
  obtain ⟨le, _, covered, above⟩ := (inv.members n).closures c (List.mem_of_getElem? hc)
  split at h
  next =>
    cases Option.some.inj h
    refine moved.propose covered fun p hp => ?_
    cases Option.some.inj hp
    exact ⟨le.trans (inv.fence n), above⟩
  next => cases Option.some.inj h; exact moved

theorem ClusterInv.syncFail (inv : ClusterInv s) {n : ι} {i : Nat} {t : TsoCluster ι}
    (h : s.step (.syncFail n i) = some t) : ClusterInv t := by
  obtain ⟨node, hn, rfl⟩ := Option.map_eq_some_iff.mp h
  obtain ⟨c, hc, hn⟩ := Option.bind_eq_some_iff.mp hn
  obtain ⟨_, hn⟩ := Option.ite_none_right_eq_some.mp hn
  cases hn
  have member := inv.members n
  refine inv.setNode (member.setNode rfl rfl (mem_closures_set hc) member.update member.calls
    member.flag) ?_ rfl id
  intro leading
  have leader := inv.leaders n leading
  refine { leader with synced := ?_, storing := ?_ }
  · intro d hd term phase
    exact leader.synced d (mem_of_mem_set_phase hd (by simp [phase])) term phase
  · intro d hd term phase
    exact leader.storing d (mem_of_mem_set_phase hd (by simp [phase])) term phase

theorem ClusterInv.request (inv : ClusterInv s) {n : ι} {request : TsoRequest}
    {t : TsoCluster ι} (covered : Covered request) (h : s.step (.request n request) = some t) :
    ClusterInv t := by
  have member := inv.members n
  simp only [TsoCluster.step] at h
  split at h
  next =>
    cases Option.some.inj h
    exact inv.propose covered (by simp)
  next =>
    cases Option.some.inj h
    simp only [TsoNode.process]
    split
    next => exact inv.setNode member (inv.leaders n) rfl id
    next accepted =>
      have on := process_genTso accepted
      refine inv.setNode (member.setNode rfl rfl (fun c hc => ⟨c, hc, rfl, rfl⟩) member.update ?_
        member.flag) ?_ rfl id
      · intro call hc
        rcases List.mem_append.mp hc with old | new
        · exact member.calls call old
        · cases List.mem_singleton.mp new
          exact le_rfl
      · intro leading
        have leader := inv.leaders n leading
        refine { leader with accepted := fun _ _ _ => on, looping := ?_ }
        intro call hc term phase
        rcases List.mem_append.mp hc with old | new
        · exact leader.looping call old term phase
        · cases List.mem_singleton.mp new
          exact absurd rfl phase
    next => exact inv.setNode member (inv.leaders n) rfl id

theorem ClusterInv.gen (inv : ClusterInv s) {n : ι} {i : Nat} {t : TsoCluster ι}
    (safe : ClusterSafe s (.gen n i)) (h : s.step (.gen n i) = some t) : ClusterInv t := by
  obtain ⟨call, hc, h⟩ := Option.bind_eq_some_iff.mp h
  obtain ⟨⟨node, answer⟩, hn, h⟩ := Option.bind_eq_some_iff.mp h
  have member := inv.members n
  rcases gen_cases hc hn with ⟨response, out, rfl⟩ | ⟨start, obj, out, rfl⟩ | ⟨left, out, rfl⟩
  · simp only [out] at h
    cases Option.some.inj h
    exact inv.setNode (member.dropGen i rfl rfl)
      (fun leading => (inv.leaders n leading).dropGen i rfl (inv.leaders n leading).window) rfl id
  · simp only [out] at h
    cases Option.some.inj h
    obtain ⟨looping, attempt⟩ := genTsoStep_grant out
    obtain ⟨leading, term, pos, fits⟩ := safe call hc looping
    have owned := (inv.leaders n leading).looping call (List.mem_of_getElem? hc) term looping
    exact inv.grant i attempt leading owned pos fits
  · simp only [out] at h
    cases Option.some.inj h
    exact inv.setNode (member.waitGen hc _)
      (fun leading => (inv.leaders n leading).waitGen hc out) rfl id

theorem ClusterInv.apply (inv : ClusterInv s) {n : ι} {t : TsoCluster ι}
    (safe : ClusterSafe s (.apply n)) (h : s.step (.apply n) = some t) : ClusterInv t := by
  obtain ⟨e, he, h⟩ := Option.bind_eq_some_iff.mp h
  obtain ⟨old, h⟩ := Option.ite_none_right_eq_some.mp h
  cases h
  obtain ⟨covered, tagged⟩ := inv.entries e (Or.inr (List.mem_of_getElem? he))
  have frame := applyEntry_frame (e.delivered n (s.members n).node) e.request (s.members n).node
  have leads : ((s.members n).node.applyEntry (e.delivered n (s.members n).node)
      e.request).role ≠ .follower → (s.members n).node.role ≠ .follower :=
    fun leading => frame.1 ▸ leading
  refine inv.setMember ((inv.members n).apply he covered) ?_ ?_ ?_ ?_ (inv.elected n)
  · intro leading
    have leading := leads leading
    refine (inv.leaders n leading).apply he covered (old.resolve_left leading) (safe e he leading)
      fun p hp => ?_
    obtain ⟨_, hp⟩ := Option.ite_none_right_eq_some.mp hp
    exact (tagged p hp).2
  · rw [frame.2.1]
    exact inv.fence n
  · rw [frame.2.1]
  · intro leading
    rw [frame.2.1]
    exact inv.started n (leads leading)

theorem clusterInv_step {t : TsoCluster ι} {e : TsoClusterEvent ι} (inv : ClusterInv s)
    (safe : ClusterSafe s e) (h : s.step e = some t) : ClusterInv t := by
  cases e with
  | elect n term =>
    obtain ⟨⟨newer, unused⟩, h⟩ := Option.ite_none_right_eq_some.mp h
    cases h
    exact inv.elect newer unused
  | leaderStart n now =>
    obtain ⟨⟨idle, newer, _, earlier⟩, h⟩ := Option.ite_none_right_eq_some.mp h
    cases h
    exact inv.leaderStart safe.1 idle newer earlier safe.2
  | stopTimer n =>
    obtain ⟨⟨node, _⟩, hn, rfl⟩ := Option.map_eq_some_iff.mp h
    obtain ⟨leading, hn⟩ := Option.ite_none_right_eq_some.mp hn
    cases hn
    have member := inv.members n
    have leads : (s.members n).node.role ≠ .follower := by simp [leading]
    exact inv.setNode (member.setNode rfl rfl (fun c hc => ⟨c, hc, rfl, rfl⟩) member.update
      member.calls (by simp)) (fun _ => { inv.leaders n leads with }) rfl fun _ => leads
  | leaderStop n =>
    obtain ⟨⟨node, _⟩, hn, rfl⟩ := Option.map_eq_some_iff.mp h
    obtain ⟨_, hn⟩ := Option.ite_none_right_eq_some.mp hn
    cases hn
    have member := inv.members n
    exact inv.setNode (member.setNode rfl rfl (fun c hc => ⟨c, hc, rfl, rfl⟩) member.update
      member.calls fun _ => rfl) (fun leading => absurd rfl leading) rfl
      fun leading => absurd rfl leading
  | runClosure n i => exact inv.runClosure safe h
  | syncFail n i => exact inv.syncFail h
  | timer n now =>
    obtain ⟨⟨node, _⟩, hn, rfl⟩ := Option.map_eq_some_iff.mp h
    obtain ⟨_, hn⟩ := Option.ite_none_right_eq_some.mp hn
    cases hn
    have member := inv.members n
    refine inv.setNode (member.setNode rfl rfl (fun c hc => ⟨c, hc, rfl, rfl⟩) ?_ member.calls
      member.flag) (fun leading => { inv.leaders n leading with }) rfl id
    exact fun r hr => updateTimestamp_covered safe member.save_nonneg member.save_lt hr
  | proposeUpdate n =>
    obtain ⟨r, hr, h⟩ := Option.bind_eq_some_iff.mp h
    cases h
    have member := inv.members n
    have idle : MemberInv s.log
        { s.members n with node := { (s.members n).node with update := none } } :=
      member.setNode rfl rfl (fun c hc => ⟨c, hc, rfl, rfl⟩) (by simp) member.calls member.flag
    have moved := inv.setNode idle (fun leading => { inv.leaders n leading with }) rfl id
    exact moved.propose (member.update r hr) (by simp)
  | request n r => exact inv.request safe h
  | gen n i => exact inv.gen safe h
  | commit k =>
    obtain ⟨e, he, h⟩ := Option.bind_eq_some_iff.mp h
    obtain ⟨newer, h⟩ := Option.ite_none_right_eq_some.mp h
    cases h
    exact inv.commit he newer
  | apply n => exact inv.apply safe h
  | saveSnapshot n =>
    cases h
    have member := inv.members n
    refine { inv with snapshots := ?_ }
    intro p hp
    rcases List.mem_append.mp hp with old | new
    · exact inv.snapshots p old
    · cases List.mem_singleton.mp new
      exact ⟨member.within, member.save_nonneg, member.save_lt, member.bounded⟩
  | loadSnapshot n k =>
    obtain ⟨⟨applied, save⟩, hp, h⟩ := Option.bind_eq_some_iff.mp h
    obtain ⟨⟨idle, newer⟩, h⟩ := Option.ite_none_right_eq_some.mp h
    cases h
    obtain ⟨within, nonneg, lt, bounded⟩ := inv.snapshots _ (List.mem_of_getElem? hp)
    exact inv.setMember ((inv.members n).loadSnapshot newer within nonneg lt bounded)
      (fun leading => absurd idle leading) (inv.fence n) le_rfl
      (fun leading => absurd idle leading) (inv.elected n)
  | restart n =>
    cases h
    exact inv.setMember (inv.members n).restart (fun leading => absurd rfl leading) (inv.fence n)
      le_rfl (fun leading => absurd rfl leading) (inv.elected n)

/-- No timestamp is granted twice, by any leader, in every run whose steps keep
clear of the cases that `ClusterSafe` names. -/
theorem cluster_grants_once (h : Reach.From TsoCluster.step ClusterSafe .init s) :
    s.granted.Pairwise fun g g' => Disjoint g.block.values g'.block.values := by
  have inv : ClusterInv s := by
    apply h.invariant
    · exact clusterInv_init
    · exact fun s e t _ inv safe hs => clusterInv_step inv safe hs
  exact inv.disjoint

/-- The first leader syncs, serves five timestamps and stops; the second starts
past every physical part of the first. -/
def handoverEvents : List (TsoClusterEvent Bool) :=
  [.elect false 1, .leaderStart false 1000, .runClosure false 0, .commit 0, .apply false,
    .runClosure false 0, .runClosure false 0,
    .request false { opType := .opGenTso, count := 5 }, .gen false 0, .gen false 0,
    .apply true, .stopTimer false, .leaderStop false,
    .elect true 2, .leaderStart true 900, .runClosure true 0, .commit 0, .apply true,
    .runClosure true 0, .runClosure true 0,
    .request true { opType := .opGenTso, count := 3 }, .gen true 0, .gen true 0]

theorem cluster_grants_once_across_handover :
    ([⟨1, ⟨1, 0, 5⟩⟩, ⟨2, ⟨900, 0, 3⟩⟩] : List TsoGrant).Pairwise
      fun g g' => Disjoint g.block.values g'.block.values := by
  have run : (handoverEvents.foldlM
      (fun s e => if ClusterSafe s e then TsoCluster.step s e else none) .init).map
        TsoCluster.granted = some [⟨1, ⟨1, 0, 5⟩⟩, ⟨2, ⟨900, 0, 3⟩⟩] := by decide
  obtain ⟨s, hs, eq⟩ := Option.map_eq_some_iff.mp run
  rw [← eq]
  exact cluster_grants_once (Reach.From.of_checked hs)

def PositiveUnforced (_ : TsoCluster ι) : TsoClusterEvent ι → Prop
  | .request _ r => r.force = false ∧ (r.opType = .opGenTso → 0 < r.count)
  | _ => True

/-- The second leader's clock reads the millisecond that the first one serves:
its first entry repeats the pair, and equality passes for no fallback. -/
def equalClockEvents : List (TsoClusterEvent Bool) :=
  [.elect false 1, .leaderStart false 1000, .runClosure false 0, .commit 0, .apply false,
    .runClosure false 0, .runClosure false 0, .runClosure false 0,
    .timer false 1000, .proposeUpdate false, .commit 0, .apply false,
    .request false { opType := .opGenTso, count := 1 }, .gen false 0, .gen false 0,
    .apply true, .apply true, .stopTimer false, .leaderStop false,
    .elect true 2, .leaderStart true 1000, .runClosure true 0, .commit 0, .apply true,
    .runClosure true 0, .runClosure true 0,
    .request true { opType := .opGenTso, count := 1 }, .gen true 0, .gen true 0]

theorem equal_clock_regrants :
    ¬ ∀ s : TsoCluster Bool, Reach.From TsoCluster.step PositiveUnforced .init s →
      s.granted.Pairwise fun g g' => Disjoint g.block.values g'.block.values := by
  intro always
  have run : (equalClockEvents.foldlM TsoCluster.step .init).map TsoCluster.granted =
      some [⟨1, ⟨1000, 0, 1⟩⟩, ⟨2, ⟨1000, 0, 1⟩⟩] := by decide
  obtain ⟨s, hs, eq⟩ := Option.map_eq_some_iff.mp run
  have allowed : ∀ s, ∀ e ∈ equalClockEvents, PositiveUnforced s e := by
    simp [equalClockEvents, PositiveUnforced]
  have disjoint := always s (Reach.From.of_foldlM allowed hs)
  rw [eq] at disjoint
  have apart := (List.pairwise_cons.mp disjoint).1 ⟨2, ⟨1000, 0, 1⟩⟩ (by simp)
  exact Set.disjoint_left.mp apart
    (show toLex ((1000 : Int), (0 : Int)) ∈ _ from ⟨0, by simp, by simp, by simp⟩)
    ⟨0, by simp, by simp, by simp⟩

end EA
