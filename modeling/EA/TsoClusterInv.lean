import EA.TsoCluster

namespace EA

variable {ι : Type}

/-- A leader owns its pair when an entry of its own term put the physical part
there and every entry of an earlier term lies below. -/
structure Owned (log : List (TsoEntry ι)) (term : Nat) (obj : TsoObj) : Prop where
  above : AboveEarlier log term obj.currentTimestamp.physical.toInt
  sourced : ∃ e ∈ log, e.request.moves = true ∧ e.term = term ∧
    e.request.physical = obj.currentTimestamp.physical.toInt

structure MemberInv (log : List (TsoEntry ι)) (m : TsoMember) : Prop where
  save_nonneg : 0 ≤ m.node.obj.lastSavePhysical.toInt
  save_lt : m.node.obj.lastSavePhysical.toInt < 2 ^ 62
  nonneg : 0 ≤ m.node.obj.currentTimestamp.physical.toInt
  within : m.applied ≤ log.length
  bounded : ∀ e ∈ log.take m.applied, e.request.moves = true →
    e.request.physical ≤ m.node.obj.lastSavePhysical.toInt
  source : m.node.obj.currentTimestamp.physical.toInt = 0 ∨
    ∃ e ∈ log.take m.applied, e.request.moves = true ∧
      e.request.physical = m.node.obj.currentTimestamp.physical.toInt
  term : m.node.term ≤ m.term
  closures : ∀ c ∈ m.node.closures, c.term ≤ m.node.term ∧ c.request.moves = true ∧
    Covered c.request ∧ AboveEarlier log c.term c.request.physical
  update : ∀ r ∈ m.node.update, Covered r
  calls : ∀ call ∈ m.node.calls, call.term ≤ m.node.term
  flag : m.node.role = .follower → m.node.isLeader = false

/-- What holds of a replica from `on_leader_start` until `on_leader_stop` returns. -/
structure LeaderInv (log : List (TsoEntry ι)) (granted : List TsoGrant) (m : TsoMember) :
    Prop where
  later : ∀ e ∈ log.drop m.applied, m.node.term ≤ e.term
  synced : ∀ c ∈ m.node.closures, c.term = m.node.term → c.phase = .synced true →
    Owned log m.node.term m.node.obj
  storing : ∀ c ∈ m.node.closures, c.term = m.node.term → c.phase = .storing →
    Owned log m.node.term m.node.obj ∨ m.node.isHealty = false
  serving : m.node.isLeader = true → Owned log m.node.term m.node.obj ∨ m.node.isHealty = false
  accepted : ∀ call ∈ m.node.calls, call.term = m.node.term → m.node.isLeader = true
  looping : ∀ call ∈ m.node.calls, call.term = m.node.term → call.phase ≠ .accepted →
    Owned log m.node.term m.node.obj
  window : ∀ g ∈ granted, g.term = m.node.term → m.node.obj.covers g.block

structure ClusterInv (s : TsoCluster ι) : Prop where
  members : ∀ n, MemberInv s.log (s.members n)
  leaders : ∀ n, (s.members n).node.role ≠ .follower → LeaderInv s.log s.granted (s.members n)
  fence : ∀ n, (s.members n).node.term ≤ s.fence
  started : ∀ n, (s.members n).node.role ≠ .follower →
    ((s.members n).node.term, n) ∈ s.elections
  elected : ∀ n, (s.members n).term ≠ 0 → ((s.members n).term, n) ∈ s.elections
  winners : (s.elections.map Prod.fst).Nodup
  entries : ∀ e, e ∈ s.inflight ∨ e ∈ s.log → Covered e.request ∧
    ∀ p, e.closure = some p → p ≤ s.fence ∧ AboveEarlier s.log p e.request.physical
  snapshots : ∀ p ∈ s.snapshots, p.1 ≤ s.log.length ∧ 0 ≤ p.2.toInt ∧ p.2.toInt < 2 ^ 62 ∧
    ∀ e ∈ s.log.take p.1, e.request.moves = true → e.request.physical ≤ p.2.toInt
  grants : ∀ g ∈ s.granted, g.term ≤ s.fence ∧ AboveEarlier s.log g.term g.block.first ∧
    ∃ e ∈ s.log, e.request.moves = true ∧ e.term = g.term ∧ e.request.physical = g.block.first
  granters : ∀ g ∈ s.granted, ∃ n, (g.term, n) ∈ s.elections ∧ g.term ≤ (s.members n).node.term
  disjoint : s.granted.Pairwise fun g g' => Disjoint g.block.values g'.block.values

theorem AboveEarlier.append {log : List (TsoEntry ι)} {term : Nat} {p : Int} {e : TsoEntry ι}
    (h : AboveEarlier log term p) (later : term ≤ e.term) : AboveEarlier (log ++ [e]) term p := by
  intro e' he' moves earlier
  rcases List.mem_append.mp he' with old | new
  · exact h e' old moves earlier
  · cases List.mem_singleton.mp new
    omega

theorem Owned.append {log : List (TsoEntry ι)} {term : Nat} {obj : TsoObj} {e : TsoEntry ι}
    (h : Owned log term obj) (later : term ≤ e.term) : Owned (log ++ [e]) term obj := by
  obtain ⟨e', he', rest⟩ := h.sourced
  exact ⟨h.above.append later, e', List.mem_append_left _ he', rest⟩

theorem MemberInv.append {log : List (TsoEntry ι)} {m : TsoMember} {e : TsoEntry ι}
    (inv : MemberInv log m) (later : m.node.term ≤ e.term) : MemberInv (log ++ [e]) m := by
  have same : (log ++ [e]).take m.applied = log.take m.applied :=
    List.take_append_of_le_length inv.within
  refine { inv with
    within := ?_
    bounded := same ▸ inv.bounded
    source := same ▸ inv.source
    closures := ?_ }
  · have within := inv.within
    rw [List.length_append]
    omega
  · intro c hc
    obtain ⟨term, moves, covered, above⟩ := inv.closures c hc
    exact ⟨term, moves, covered, above.append (by omega)⟩

theorem LeaderInv.append {log : List (TsoEntry ι)} {granted : List TsoGrant} {m : TsoMember}
    {e : TsoEntry ι} (within : m.applied ≤ log.length) (inv : LeaderInv log granted m)
    (later : m.node.term ≤ e.term) : LeaderInv (log ++ [e]) granted m := by
  refine ⟨?_, ?_, ?_, ?_, inv.accepted, ?_, inv.window⟩
  · intro e' he'
    rw [List.drop_append_of_le_length within] at he'
    rcases List.mem_append.mp he' with old | new
    · exact inv.later e' old
    · cases List.mem_singleton.mp new
      exact later
  · exact fun c hc term phase => (inv.synced c hc term phase).append later
  · exact fun c hc term phase => (inv.storing c hc term phase).imp_left (Owned.append · later)
  · exact fun flag => (inv.serving flag).imp_left (Owned.append · later)
  · exact fun call hc term phase => (inv.looping call hc term phase).append later

/-- Most steps keep `_tso_obj` and only move closures and calls along. -/
theorem MemberInv.setNode {log : List (TsoEntry ι)} {m : TsoMember} (inv : MemberInv log m)
    {node : TsoNode} (obj : node.obj = m.node.obj) (term : node.term = m.node.term)
    (closures : ∀ c ∈ node.closures, ∃ c' ∈ m.node.closures,
      c'.term = c.term ∧ c'.request = c.request)
    (update : ∀ r ∈ node.update, Covered r)
    (calls : ∀ call ∈ node.calls, call.term ≤ m.node.term)
    (flag : node.role = .follower → node.isLeader = false) :
    MemberInv log { m with node := node } := by
  constructor
  case save_nonneg => simpa only [obj] using inv.save_nonneg
  case save_lt => simpa only [obj] using inv.save_lt
  case nonneg => simpa only [obj] using inv.nonneg
  case within => exact inv.within
  case bounded => simpa only [obj] using inv.bounded
  case source => simpa only [obj] using inv.source
  case term => simpa only [term] using inv.term
  case update => exact update
  case calls => simpa only [term] using calls
  case flag => exact flag
  case closures =>
    intro c hc
    obtain ⟨c', hc', sameTerm, sameRequest⟩ := closures c hc
    have old := inv.closures c' hc'
    rw [sameTerm, sameRequest] at old
    simpa only [term] using old

theorem mem_closures_set {closures : List StartClosure} {i : Nat} {c : StartClosure}
    (hc : closures[i]? = some c) {phase : StartPhase} :
    ∀ d ∈ closures.set i { c with phase := phase }, ∃ c' ∈ closures,
      c'.term = d.term ∧ c'.request = d.request := by
  intro d hd
  rcases List.mem_or_eq_of_mem_set hd with old | rfl
  · exact ⟨d, old, rfl, rfl⟩
  · exact ⟨c, List.mem_of_getElem? hc, rfl, rfl⟩

/-- A closure found in a phase that was not the one just set was there before. -/
theorem mem_of_mem_set_phase {closures : List StartClosure} {i : Nat} {c d : StartClosure}
    {phase : StartPhase} (hd : d ∈ closures.set i { c with phase := phase })
    (other : d.phase ≠ phase) : d ∈ closures := by
  rcases List.mem_or_eq_of_mem_set hd with old | rfl
  · exact old
  · exact absurd rfl other

theorem MemberInv.runClosure {log : List (TsoEntry ι)} {m : TsoMember} {i : Nat}
    {c : StartClosure} {node : TsoNode} (inv : MemberInv log m)
    (hc : m.node.closures[i]? = some c) (h : m.node.runClosure i = some node)
    (safe : c.phase = .storing → m.node.role ≠ .follower) :
    MemberInv log { m with node := node } := by
  simp only [TsoNode.runClosure, hc, Option.bind_eq_bind, Option.bind_some] at h
  cases hp : c.phase with
  | created =>
    simp only [hp] at h
    cases Option.some.inj h
    exact inv.setNode rfl rfl (mem_closures_set hc) inv.update inv.calls inv.flag
  | syncing => simp [hp] at h
  | synced ok =>
    simp only [hp] at h
    cases Option.some.inj h
    exact inv.setNode rfl rfl (mem_closures_set hc) inv.update inv.calls inv.flag
  | storing =>
    simp only [hp] at h
    cases Option.some.inj h
    exact inv.setNode rfl rfl (mem_closures_set hc) inv.update inv.calls
      fun deposed => absurd deposed (safe hp)
  | startingTimer =>
    simp only [hp] at h
    cases Option.some.inj h
    exact inv.setNode rfl rfl (fun d hd => ⟨d, List.mem_of_mem_eraseIdx hd, rfl, rfl⟩)
      inv.update inv.calls inv.flag

theorem LeaderInv.runClosure {log : List (TsoEntry ι)} {granted : List TsoGrant} {m : TsoMember}
    {i : Nat} {c : StartClosure} {node : TsoNode} (inv : LeaderInv log granted m)
    (hc : m.node.closures[i]? = some c) (h : m.node.runClosure i = some node)
    (safe : c.phase = .storing → c.term = m.node.term) :
    LeaderInv log granted { m with node := node } := by
  have here : c ∈ m.node.closures := List.mem_of_getElem? hc
  simp only [TsoNode.runClosure, hc, Option.bind_eq_bind, Option.bind_some] at h
  cases hp : c.phase with
  | created =>
    simp only [hp] at h
    cases Option.some.inj h
    refine ⟨inv.later, ?_, ?_, inv.serving, inv.accepted, inv.looping, inv.window⟩
    · intro d hd term phase
      exact inv.synced d (mem_of_mem_set_phase hd (by simp [phase])) term phase
    · intro d hd term phase
      exact inv.storing d (mem_of_mem_set_phase hd (by simp [phase])) term phase
  | syncing => simp [hp] at h
  | synced ok =>
    simp only [hp] at h
    cases Option.some.inj h
    have weaken : m.node.isHealty = false → (m.node.isHealty && ok) = false := by simp +contextual
    refine ⟨inv.later, ?_, ?_, ?_, inv.accepted, inv.looping, inv.window⟩
    · intro d hd term phase
      exact inv.synced d (mem_of_mem_set_phase hd (by simp [phase])) term phase
    · intro d hd term phase
      rcases List.mem_or_eq_of_mem_set hd with old | rfl
      · exact (inv.storing d old term phase).imp_right weaken
      · -- the closure goes on either way; only a successful sync leaves the node healthy
        cases ok with
        | true => exact Or.inl (inv.synced c here term hp)
        | false => exact Or.inr (Bool.and_false _)
    · exact fun flag => (inv.serving flag).imp_right weaken
  | storing =>
    simp only [hp] at h
    cases Option.some.inj h
    refine ⟨inv.later, ?_, ?_, ?_, fun _ _ _ => rfl, inv.looping, inv.window⟩
    · intro d hd term phase
      exact inv.synced d (mem_of_mem_set_phase hd (by simp [phase])) term phase
    · intro d hd term phase
      exact inv.storing d (mem_of_mem_set_phase hd (by simp [phase])) term phase
    · exact fun _ => inv.storing c here (safe hp) hp
  | startingTimer =>
    simp only [hp] at h
    cases Option.some.inj h
    exact ⟨inv.later, fun d hd => inv.synced d (List.mem_of_mem_eraseIdx hd),
      fun d hd => inv.storing d (List.mem_of_mem_eraseIdx hd), inv.serving, inv.accepted,
      inv.looping, inv.window⟩

section Apply

variable (delivered : Option Nat) (r : TsoRequest) (node : TsoNode)

theorem applyEntry_obj : (node.applyEntry delivered r).obj = (tsoApply r node.obj node.isHealty).1 := by
  cases delivered <;> rfl

theorem applyEntry_isHealty :
    (node.applyEntry delivered r).isHealty = (tsoApply r node.obj node.isHealty).2.1 := by
  cases delivered <;> rfl

theorem applyEntry_frame : (node.applyEntry delivered r).role = node.role ∧
    (node.applyEntry delivered r).term = node.term ∧
    (node.applyEntry delivered r).isLeader = node.isLeader ∧
    (node.applyEntry delivered r).update = node.update ∧
    (node.applyEntry delivered r).calls = node.calls := by
  cases delivered <;> exact ⟨rfl, rfl, rfl, rfl, rfl⟩

/-- A closure is only touched by the entry it waits for, and learns `true` only
when `update_tso` or `reset_tso` has accepted it. -/
theorem applyEntry_closures {c : StartClosure} (hc : c ∈ (node.applyEntry delivered r).closures) :
    c ∈ node.closures ∨ ∃ c' ∈ node.closures, delivered = some c'.term ∧
      c'.term = c.term ∧ c'.request = c.request ∧
      c.phase = .synced ((tsoApply r node.obj node.isHealty).2.2.errcode = some .success) := by
  cases delivered with
  | none => exact Or.inl hc
  | some term =>
    obtain ⟨c', hc', rfl⟩ := List.mem_map.mp hc
    by_cases waits : c'.term = term ∧ c'.phase = .syncing
    · obtain ⟨rfl, syncing⟩ := waits
      refine Or.inr ⟨c', hc', rfl, ?_⟩
      rw [StartClosure.deliver, if_pos ⟨rfl, syncing⟩]
      exact ⟨rfl, rfl, rfl⟩
    · rw [StartClosure.deliver, if_neg waits]
      exact Or.inl hc'

end Apply

theorem take_succ_of_getElem? {α : Type} {xs : List α} {i : Nat} {x : α} (h : xs[i]? = some x) :
    xs.take (i + 1) = xs.take i ++ [x] := by
  rw [List.take_add_one, h]
  rfl

/-- What an applied entry has to do to the pair; the rest of the node follows. -/
theorem MemberInv.afterEntry {log : List (TsoEntry ι)} {m : TsoMember} {e : TsoEntry ι}
    {delivered : Option Nat} {obj : TsoObj} (inv : MemberInv log m)
    (he : log[m.applied]? = some e) (new : (m.node.applyEntry delivered e.request).obj = obj)
    (raised : m.node.obj.lastSavePhysical.toInt ≤ obj.lastSavePhysical.toInt)
    (small : obj.lastSavePhysical.toInt < 2 ^ 62)
    (nonneg : 0 ≤ obj.currentTimestamp.physical.toInt)
    (bounded : e.request.moves = true → e.request.physical ≤ obj.lastSavePhysical.toInt)
    (source : obj.currentTimestamp = m.node.obj.currentTimestamp ∨
      e.request.moves = true ∧ e.request.current = obj.currentTimestamp) :
    MemberInv log { m with
      node := m.node.applyEntry delivered e.request
      applied := m.applied + 1 } := by
  obtain ⟨role, term, flag, update, calls⟩ := applyEntry_frame delivered e.request m.node
  have taken := take_succ_of_getElem? he
  constructor
  case save_nonneg =>
    have := inv.save_nonneg
    simp only [new]
    omega
  case save_lt => simpa only [new] using small
  case nonneg => simpa only [new] using nonneg
  case within =>
    have := (List.getElem?_eq_some_iff.mp he).1
    dsimp only
    omega
  case bounded =>
    intro e' he' moves
    simp only [new]
    rw [taken] at he'
    rcases List.mem_append.mp he' with old | this
    · have := inv.bounded e' old moves
      omega
    · cases List.mem_singleton.mp this
      exact bounded moves
  case source =>
    simp only [new, taken]
    rcases source with same | ⟨moves, current⟩
    · rw [same]
      refine inv.source.imp_right ?_
      intro ⟨e', he', rest⟩
      exact ⟨e', List.mem_append_left _ he', rest⟩
    · rw [← current]
      exact Or.inr ⟨e, by simp, moves, rfl⟩
  case term => simpa only [term] using inv.term
  case closures =>
    simp only [term]
    intro c hc
    rcases applyEntry_closures _ _ _ hc with old | ⟨c', hc', _, sameTerm, sameRequest, _⟩
    · exact inv.closures c old
    · have old := inv.closures c' hc'
      rwa [sameTerm, sameRequest] at old
  case update => simpa only [update] using inv.update
  case calls => simpa only [term, calls] using inv.calls
  case flag => simpa only [role, flag] using inv.flag

theorem MemberInv.low {log : List (TsoEntry ι)} {m : TsoMember} (inv : MemberInv log m) :
    m.node.obj.currentTimestamp.physical.toInt ≤ m.node.obj.lastSavePhysical.toInt := by
  rcases inv.source with zero | ⟨e, he, moves, eq⟩
  · have := inv.save_nonneg
    omega
  · exact eq ▸ inv.bounded e he moves

/-- A rejected entry lies below the saved bound as well: this is why no node ever
meets an applied entry above its bound, even where two replicas disagreed. -/
theorem MemberInv.apply {log : List (TsoEntry ι)} {m : TsoMember} {e : TsoEntry ι}
    {delivered : Option Nat} (inv : MemberInv log m) (he : log[m.applied]? = some e)
    (covered : Covered e.request) :
    MemberInv log { m with
      node := m.node.applyEntry delivered e.request
      applied := m.applied + 1 } := by
  rcases tsoApply_cases m.node.obj m.node.isHealty
      (fun moves => (covered moves).1) with ⟨obj, _, _, refused⟩ | ⟨moves, pass, obj, _⟩
  · have same := (applyEntry_obj delivered e.request m.node).trans obj
    refine inv.afterEntry he same le_rfl inv.save_lt inv.nonneg ?_ (Or.inl rfl)
    intro moves
    have fallback := refused moves
    simp only [timeFallback, Bool.or_eq_true, decide_eq_true_eq, Int64.lt_iff_toInt_lt] at fallback
    have le := (covered moves).2.1
    have low := inv.low
    have unfolded : e.request.physical = e.request.current.physical.toInt := rfl
    omega
  · have new := (applyEntry_obj delivered e.request m.node).trans obj
    obtain ⟨save_le, phys_le⟩ := timeFallback_eq_false.mp pass
    rw [Int64.le_iff_toInt_le] at save_le phys_le
    obtain ⟨_, le, lt⟩ := covered moves
    have nonneg := inv.nonneg
    exact inv.afterEntry he new save_le lt (by dsimp only; omega) (fun _ => le)
      (Or.inr ⟨moves, rfl⟩)

/-- An entry of the leader's own term that is accepted makes the leader own the
new pair, provided it owned the old one or the entry lies above earlier terms. -/
theorem owned_of_accepted {log : List (TsoEntry ι)} {term : Nat} {obj' : TsoObj} (obj : TsoObj)
    {e : TsoEntry ι} (he : e ∈ log) (moves : e.request.moves = true) (own : e.term = term)
    (new : obj'.currentTimestamp = e.request.current)
    (above : AboveEarlier log term e.request.physical ∨
      Owned log term obj ∧ timeFallback e.request obj = false) : Owned log term obj' := by
  constructor
  · rw [new]
    rcases above with above | ⟨owned, pass⟩
    · exact above
    · have le := (timeFallback_eq_false.mp pass).2
      rw [Int64.le_iff_toInt_le] at le
      exact fun e' he' moves' earlier => (owned.above e' he' moves' earlier).trans_le le
  · exact ⟨e, he, moves, own, by rw [new]; rfl⟩

theorem covers_of_accepted {obj : TsoObj} {r : TsoRequest} (pass : timeFallback r obj = false)
    (keeps : r.current.physical = obj.currentTimestamp.physical →
      obj.currentTimestamp.logical ≤ r.current.logical) {b : Block Int} (hb : obj.covers b) :
    TsoObj.covers ⟨r.current, r.save⟩ b := by
  have le := (timeFallback_eq_false.mp pass).2
  rw [Int64.le_iff_toInt_le] at le
  by_cases same : r.current.physical = obj.currentTimestamp.physical
  · have logical := keeps same
    rw [Int64.le_iff_toInt_le] at logical
    simp only [TsoObj.covers, same]
    exact Block.Below.advance hb logical
  · have ne : r.current.physical.toInt ≠ obj.currentTimestamp.physical.toInt :=
      fun eq => same (Int64.toInt_inj.mp eq)
    exact Block.Below.raise _ hb (by dsimp only; omega)

/-- What an applied entry has to do to the pair and the health of a leader. -/
theorem LeaderInv.afterEntry {log : List (TsoEntry ι)} {granted : List TsoGrant} {m : TsoMember}
    {e : TsoEntry ι} {delivered : Option Nat} {obj : TsoObj} {healty : Bool}
    (inv : LeaderInv log granted m) (he : log[m.applied]? = some e)
    (new : (m.node.applyEntry delivered e.request).obj = obj)
    (newHealty : (m.node.applyEntry delivered e.request).isHealty = healty)
    (keep : Owned log m.node.term m.node.obj → Owned log m.node.term obj)
    (ready : Owned log m.node.term m.node.obj ∨ m.node.isHealty = false →
      Owned log m.node.term obj ∨ healty = false)
    (success : delivered = some m.node.term →
      (tsoApply e.request m.node.obj m.node.isHealty).2.2.errcode = some .success →
        Owned log m.node.term obj)
    (window : ∀ g ∈ granted, g.term = m.node.term → obj.covers g.block) :
    LeaderInv log granted { m with
      node := m.node.applyEntry delivered e.request
      applied := m.applied + 1 } := by
  obtain ⟨_, term, flag, _, calls⟩ := applyEntry_frame delivered e.request m.node
  constructor
  case later =>
    obtain ⟨lt, eq⟩ := List.getElem?_eq_some_iff.mp he
    have rest : log.drop m.applied = e :: log.drop (m.applied + 1) := by
      rw [List.drop_eq_getElem_cons lt, eq]
    simp only [term]
    intro e' he'
    exact inv.later e' (rest ▸ List.mem_cons_of_mem _ he')
  case synced =>
    simp only [term, new]
    intro c hc sameTerm phase
    rcases applyEntry_closures _ _ _ hc with old | ⟨c', _, tag, eq, _, synced⟩
    · exact keep (inv.synced c old sameTerm phase)
    · rw [phase, StartPhase.synced.injEq] at synced
      exact success (by rw [tag, eq, sameTerm]) (by simpa using synced.symm)
  case storing =>
    simp only [term, new, newHealty]
    intro c hc sameTerm phase
    rcases applyEntry_closures _ _ _ hc with old | ⟨_, _, _, _, _, synced⟩
    · exact ready (inv.storing c old sameTerm phase)
    · simp [phase] at synced
  case serving =>
    simp only [term, flag, new, newHealty]
    exact fun on => ready (inv.serving on)
  case accepted => simpa only [term, flag, calls] using inv.accepted
  case looping =>
    simp only [term, new, calls]
    exact fun call hc sameTerm phase => keep (inv.looping call hc sameTerm phase)
  case window => simpa only [term, new] using window

theorem LeaderInv.apply {log : List (TsoEntry ι)} {granted : List TsoGrant} {m : TsoMember}
    {e : TsoEntry ι} {delivered : Option Nat} (inv : LeaderInv log granted m)
    (he : log[m.applied]? = some e) (covered : Covered e.request) (old : e.term ≤ m.node.term)
    (safe : Advances log m.node e.request)
    (tagged : ∀ p, delivered = some p → AboveEarlier log p e.request.physical) :
    LeaderInv log granted { m with
      node := m.node.applyEntry delivered e.request
      applied := m.applied + 1 } := by
  rcases tsoApply_cases m.node.obj m.node.isHealty
      (fun moves => (covered moves).1) with ⟨obj, healty, fail, _⟩ | ⟨moves, pass, obj, healty⟩
  · have same := (applyEntry_obj delivered e.request m.node).trans obj
    have sameHealty := (applyEntry_isHealty delivered e.request m.node).trans healty
    exact inv.afterEntry he same sameHealty id id (fun _ success => absurd success fail) inv.window
  · have new := (applyEntry_obj delivered e.request m.node).trans obj
    have newHealty := (applyEntry_isHealty delivered e.request m.node).trans healty
    obtain ⟨keeps, revived⟩ := safe moves pass
    have hlog : e ∈ log := List.mem_of_getElem? he
    have own : e.term = m.node.term := by
      obtain ⟨lt, eq⟩ := List.getElem?_eq_some_iff.mp he
      have mem : e ∈ log.drop m.applied := by
        rw [List.drop_eq_getElem_cons lt, eq]
        exact List.mem_cons_self
      have := inv.later e mem
      omega
    have keep : Owned log m.node.term m.node.obj →
        Owned log m.node.term ⟨e.request.current, e.request.save⟩ :=
      fun owned => owned_of_accepted m.node.obj hlog moves own rfl (Or.inr ⟨owned, pass⟩)
    refine inv.afterEntry he new newHealty keep ?_ ?_ ?_
    · intro held
      rcases held with owned | sick
      · exact Or.inl (keep owned)
      · by_cases reset : e.request.opType = .opResetTso
        · exact Or.inl (owned_of_accepted m.node.obj hlog moves own rfl
            (Or.inl (revived sick reset)))
        · exact Or.inr (by simp [sick, reset])
    · intro tag _
      exact owned_of_accepted m.node.obj hlog moves own rfl (Or.inl (tagged _ tag))
    · exact fun g hg sameTerm => covers_of_accepted pass keeps (inv.window g hg sameTerm)

end EA
