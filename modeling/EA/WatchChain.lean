import EA.ConfigClient

namespace EA

/-- Every on_new_version callback names the version delivered just before it,
the first one the version that the watch started from. -/
def Linked : ModuleVersion → List Delivery → Prop
  | _, [] => True
  | last, d :: rest =>
    (d.callback = .onNewVersion → d.data.currentVersion = last) ∧ Linked d.data.newVersion rest

/-- The notifications of one listener form a chain. -/
structure Chained (start : ModuleVersion) (deliveries : List Delivery) : Prop where
  once : deliveries.Pairwise fun _ later => later.callback = .onNewVersion
  increasing : deliveries.Pairwise fun earlier later =>
    compare earlier.data.newVersion later.data.newVersion = .lt
  linked : Linked start deliveries

/-- What the round did with one answer: the copied watch and the answer. -/
abbrev Answered := ConfigWatchEntity × ConfigInfo

/-- Each answer finds the version of the answer before it as the notice version. -/
def Follows : Option ModuleVersion → List Answered → Prop
  | _, [] => True
  | last, (watch, info) :: rest =>
    (∀ version, last = some version → watch.noticeVersion = version) ∧
      Follows (some info.moduleVersion) rest

/-- One answer at most calls the listener, and calls it with a new version only
when the watch started from no version. -/
structure OneCall (start : ModuleVersion) (answers : List Answered) : Prop where
  single : (answers.filter fun a => called a.1 a.2.moduleVersion).length ≤ 1
  first : ∀ a ∈ answers, called a.1 a.2.moduleVersion = true →
    a.1.noticeVersion = kZero ∨ start = kZero

section Sequence

variable {types : ConfigTypes} {answers : List Answered} {start : ModuleVersion}

def deliveries (types : ConfigTypes) (answers : List Answered) : List Delivery :=
  answers.filterMap fun a => notify types a.1 a.2

theorem length_deliveries (types : ConfigTypes) (answers : List Answered) :
    (deliveries types answers).length =
      (answers.filter fun a => called a.1 a.2.moduleVersion).length := by
  induction answers with
  | nil => rfl
  | cons a answers ih =>
    rw [deliveries, List.filterMap_cons, List.filter_cons]
    cases call : called a.1 a.2.moduleVersion with
    | true =>
      obtain ⟨d, hd, _⟩ := notify_of_called types call
      rw [hd, if_pos rfl, List.length_cons, List.length_cons, ← ih]
      rfl
    | false =>
      rw [notify_of_not_called call, if_neg (by simp)]
      exact ih

theorem Follows.append {pre post : List Answered} {a : Answered} {last : Option ModuleVersion}
    (h : Follows last (pre ++ a :: post)) : Follows (some a.2.moduleVersion) post := by
  induction pre generalizing last with
  | nil => exact h.2
  | cons b pre ih => exact ih h.2

/-- After an answer of version 0.0.0 the listener is told of a new config. -/
theorem Follows.newConfig (h : Follows (some kZero) answers) (set : ∀ a ∈ answers,
    a.1.listener.onNewConfig = true) {d : Delivery} {rest : List Delivery}
    (sent : deliveries types answers = d :: rest) : d.callback = .onNewConfig := by
  cases answers with
  | nil => simp [deliveries] at sent
  | cons a answers =>
    have zero : a.1.noticeVersion = kZero := h.1 kZero rfl
    have call : called a.1 a.2.moduleVersion = true := by
      rw [called, if_pos zero, set a (by simp)]
    obtain ⟨d', hd', _⟩ := notify_of_called types call
    rw [deliveries, List.filterMap_cons, hd'] at sent
    cases (List.cons.inj sent).1
    exact (notify_eq_some hd').2.2.2.2.mpr zero

theorem callback_eq (d : Delivery) : d.callback = .onNewVersion ↔ d.callback ≠ .onNewConfig := by
  cases d.callback <;> simp

theorem Chained.oneCall (h : Chained start (deliveries types answers)) {last : Option ModuleVersion}
    (follows : Follows last answers) (set : ∀ a ∈ answers, a.1.listener.onNewConfig = true) :
    OneCall start answers := by
  have single : (deliveries types answers).length ≤ 1 := by
    cases sent : deliveries types answers with
    | nil => simp
    | cons d rest =>
      obtain ⟨pre, a, post, split, _, first, later⟩ := List.filterMap_eq_cons_iff.mp sent
      cases rest with
      | nil => simp
      | cons d' rest =>
        -- the second callback has to be a new version, and has 0.0.0 as current version
        rw [sent] at h
        have second : d'.callback = .onNewVersion :=
          (List.pairwise_cons.mp h.once).1 d' (by simp)
        have current := h.linked.2.1 second
        have mem : d' ∈ deliveries types post := by
          rw [deliveries, later]
          simp
        obtain ⟨a', _, ha'⟩ := List.mem_filterMap.mp mem
        rw [(notify_eq_some ha').2.2.1, (notify_eq_some first).2.2.2.1] at current
        rw [split] at follows
        have after := follows.append
        rw [← current] at after
        have setPost : ∀ b ∈ post, b.1.listener.onNewConfig = true := by
          intro b hb
          apply set b
          rw [split]
          simp [hb]
        have again : deliveries types post = d' :: rest := later
        have newConfig : d'.callback = .onNewConfig := after.newConfig setPost again
        simp [second] at newConfig
  refine ⟨by rwa [length_deliveries] at single, fun a mem call => ?_⟩
  by_contra neither
  obtain ⟨nonzero, started⟩ := not_or.mp neither
  obtain ⟨d, hd, _⟩ := notify_of_called types call
  have sent : d ∈ deliveries types answers := List.mem_filterMap.mpr ⟨a, mem, hd⟩
  have only : deliveries types answers = [d] := by
    obtain ⟨d', only⟩ := List.length_eq_one_iff.mp
      (le_antisymm single (List.length_pos_of_mem sent))
    rw [only] at sent
    rw [only, List.mem_singleton.mp sent]
  rw [only] at h
  obtain ⟨_, _, current, _, newConfig⟩ := notify_eq_some hd
  have isVersion : d.callback = .onNewVersion := (callback_eq d).mpr fun c => nonzero (newConfig.mp c)
  exact started ((h.linked.1 isVersion).symm.trans current)

theorem OneCall.chained (types : ConfigTypes) (h : OneCall start answers) :
    Chained start (deliveries types answers) := by
  have short := h.single
  rw [← length_deliveries types] at short
  cases sent : deliveries types answers with
  | nil => exact ⟨List.Pairwise.nil, List.Pairwise.nil, trivial⟩
  | cons d rest =>
    have alone : rest = [] := by
      rw [sent, List.length_cons] at short
      exact List.length_eq_zero_iff.mp (by omega)
    subst rest
    refine ⟨List.pairwise_singleton _ _, List.pairwise_singleton _ _, fun isVersion => ?_, trivial⟩
    have mem : d ∈ deliveries types answers := by simp [sent]
    obtain ⟨a, ha, hd⟩ := List.mem_filterMap.mp mem
    obtain ⟨call, _, current, _, newConfig⟩ := notify_eq_some hd
    rcases h.first a ha call with zero | started
    · exact absurd (newConfig.mpr zero) ((callback_eq d).mp isVersion)
    · rw [current, started]

end Sequence

section Runs

variable {text : Type} {codec : JsonCodec text} {types : ConfigTypes} {c c' : ConfigClient text}
  {name : Bytes} {r : Nat} {listener : ConfigEventListener} {watch : ConfigWatchEntity}
  {e : ClientEvent}

/-- The answer that a step gets for a registration, with the watch of the round's copy. -/
def answered (r : Nat) (c : ConfigClient text) : ClientEvent → Option Answered
  | .check name (.ok info) =>
    match c.round with
    | none => none
    | some round =>
      match round.watches[name]? with
      | none => none
      | some watch =>
        if name ∈ round.pending ∧ watch.registration = r then some (watch, info) else none
  | _ => none

/-- All answers that a run gets for a registration. -/
def answers (codec : JsonCodec text) (types : ConfigTypes) (r : Nat) :
    ConfigClient text → List ClientEvent → List Answered
  | _, [] => []
  | c, e :: events =>
    (answered r c e).toList ++
      match clientStep codec types c e with
      | none => []
      | some c' => answers codec types r c' events

def deliveriesTo (r : Nat) (c : ConfigClient text) : List Delivery :=
  c.delivered.filter fun d => d.registration = r

def Keeps (name : Bytes) (e : ClientEvent) : Prop :=
  e ≠ .unwatchConfig name ∧ e ≠ .unapply name

/-- The notice version that a watch has once the updates of the round are written. -/
def effective (name : Bytes) (c : ConfigClient text) (watch : ConfigWatchEntity) : ModuleVersion :=
  ((c.round.bind fun round => lastUpdate name round.updates)).getD watch.noticeVersion

/-- The registration is the current one of its name, and the round in progress, if
it has copied it and not visited it yet, has its notice version. -/
structure KeptWatch (name : Bytes) (r : Nat) (listener : ConfigEventListener) (c : ConfigClient text)
    (watch : ConfigWatchEntity) : Prop where
  stored : c.watches[name]? = some watch
  registration : watch.registration = r
  listens : watch.listener = listener
  fresh : r < c.registrations
  alone : ∀ (m : Bytes) (w : ConfigWatchEntity), c.watches[m]? = some w → w.registration = r → m = name
  copied : ∀ round, c.round = some round → ∀ (m : Bytes) (w : ConfigWatchEntity),
    round.watches[m]? = some w → w.registration = r → m = name ∧ w.listener = listener ∧
      (name ∈ round.pending → lastUpdate name round.updates = none ∧
        w.noticeVersion = watch.noticeVersion)

/-- The registration was answered, last with the given version. -/
structure LastAnswer (name : Bytes) (r : Nat) (c : ConfigClient text) (watch : ConfigWatchEntity)
    (version : ModuleVersion) : Prop where
  noticed : effective name c watch = version
  own : ∀ round, c.round = some round → ∀ w : ConfigWatchEntity, round.watches[name]? = some w →
    w.registration = r

/-- What one step does for a kept registration: an answer finds the last version
answered as the notice version, any other step leaves that version. -/
structure WatchStep (name : Bytes) (r : Nat) (listener : ConfigEventListener) (c : ConfigClient text)
    (e : ClientEvent) (c' : ConfigClient text) (watch watch' : ConfigWatchEntity) : Prop where
  kept : KeptWatch name r listener c' watch'
  answer : ∀ a, answered r c e = some a → a.1.listener = listener ∧
    a.1.noticeVersion = effective name c watch ∧ LastAnswer name r c' watch' a.2.moduleVersion
  silent : answered r c e = none → ∀ version, LastAnswer name r c watch version →
    LastAnswer name r c' watch' version

theorem KeptWatch.step_of_quiet (h : KeptWatch name r listener c watch) (quiet : answered r c e = none)
    (watches : ∀ (m : Bytes) (w : ConfigWatchEntity), c'.watches[m]? = some w →
      w.registration = r → c.watches[m]? = some w)
    (stored : c'.watches[name]? = some watch) (round : c'.round = c.round)
    (fresh : r < c'.registrations) : WatchStep name r listener c e c' watch watch := by
  refine ⟨⟨stored, h.registration, h.listens, fresh, ?_, ?_⟩, ?_, ?_⟩
  · exact fun m w found own => h.alone m w (watches m w found own) own
  · rw [round]
    exact h.copied
  · intro a ha
    simp [quiet] at ha
  · intro _ version ⟨noticed, own⟩
    exact ⟨by rw [effective, round]; exact noticed, by rw [round]; exact own⟩

theorem answered_of_not_check (notCheck : ∀ name answer, e ≠ .check name answer) :
    answered r c e = none := by
  cases e with
  | check name answer => exact absurd rfl (notCheck name answer)
  | _ => rfl

theorem KeptWatch.copy (h : KeptWatch name r listener c watch) (idle : c.round = none) :
    WatchStep name r listener c .copy
      { c with round := some { watches := c.watches, pending := c.watches.keys } } watch watch := by
  refine ⟨⟨h.stored, h.registration, h.listens, h.fresh, h.alone, ?_⟩, ?_, ?_⟩
  · intro round running m w found own
    cases Option.some.inj running
    have here : m = name := h.alone m w found own
    subst m
    have eq : w = watch := Option.some.inj (found.symm.trans h.stored)
    subst w
    exact ⟨rfl, h.listens, fun _ => ⟨rfl, rfl⟩⟩
  · intro a ha
    simp [answered] at ha
  · intro _ version ⟨noticed, _⟩
    refine ⟨?_, ?_⟩
    · rw [effective, idle] at noticed
      exact noticed
    · intro round running w found
      cases Option.some.inj running
      have eq : w = watch := Option.some.inj (found.symm.trans h.stored)
      rw [eq, h.registration]

theorem KeptWatch.writeBack (h : KeptWatch name r listener c watch) {round : Round}
    (running : c.round = some round) :
    WatchStep name r listener c .writeBack
      { c with watches := round.updates.foldl writeUpdate c.watches, round := none } watch
      { watch with noticeVersion := (lastUpdate name round.updates).getD watch.noticeVersion } := by
  refine ⟨⟨?_, h.registration, h.listens, h.fresh, ?_, ?_⟩, ?_, ?_⟩
  · rw [lookup_writeUpdates, h.stored]
    rfl
  · intro m w found own
    dsimp only at found
    rw [lookup_writeUpdates] at found
    obtain ⟨before, hbefore, rfl⟩ := Option.map_eq_some_iff.mp found
    exact h.alone m before hbefore own
  · intro round' running'
    simp at running'
  · intro a ha
    simp [answered] at ha
  · intro _ version ⟨noticed, _⟩
    refine ⟨?_, fun round' running' => by simp at running'⟩
    rw [effective, running] at noticed
    exact noticed

theorem KeptWatch.failed (h : KeptWatch name r listener c watch) {round : Round} {m : Bytes}
    {w : ConfigWatchEntity} {err : Status} (running : c.round = some round) :
    WatchStep name r listener c (.check m (.error err))
      (checkWatch codec types m w round c (.error err)) watch watch := by
  refine ⟨⟨h.stored, h.registration, h.listens, h.fresh, h.alone, ?_⟩, ?_, ?_⟩
  · intro round' running' m' w' found own
    cases Option.some.inj running'
    obtain ⟨here, listens, pending⟩ := h.copied round running m' w' found own
    exact ⟨here, listens, fun mem => pending (List.mem_filter.mp mem).1⟩
  · intro a ha
    simp [answered] at ha
  · intro _ version ⟨noticed, own⟩
    refine ⟨?_, ?_⟩
    · rw [effective, running] at noticed
      exact noticed
    · intro round' running' w' found
      cases Option.some.inj running'
      exact own round running w' found

theorem effective_answered {round : Round} {m : Bytes} {w : ConfigWatchEntity} {info : ConfigInfo}
    (running : c.round = some round) : effective name (checkWatch codec types m w round c (.ok info))
      watch = if info.name = name then info.moduleVersion else effective name c watch := by
  simp only [effective, checkWatch, running, Option.bind_some, lastUpdate_concat]
  split
  next => rfl
  next => rfl

theorem KeptWatch.checked (h : KeptWatch name r listener c watch) {round : Round} {m : Bytes}
    {w : ConfigWatchEntity} {info : ConfigInfo} (server : info.name = m)
    (running : c.round = some round) (pending : m ∈ round.pending)
    (found : round.watches[m]? = some w) :
    WatchStep name r listener c (.check m (.ok info))
      (checkWatch codec types m w round c (.ok info)) watch watch := by
  have read : answered r c (.check m (.ok info)) = if w.registration = r then some (w, info) else none := by
    simp only [answered, running, found, pending, true_and]
  refine ⟨⟨h.stored, h.registration, h.listens, h.fresh, h.alone, ?_⟩, ?_, ?_⟩
  · intro round' running' m' w' found' own
    cases Option.some.inj running'
    obtain ⟨here, listens, before⟩ := h.copied round running m' w' found' own
    refine ⟨here, listens, fun mem => ?_⟩
    obtain ⟨mem, other⟩ := List.mem_filter.mp mem
    have ne : info.name ≠ name := by
      rw [server]
      intro eq
      simp [eq] at other
    rw [lastUpdate_concat, if_neg ne]
    exact before mem
  · intro a ha
    rw [read] at ha
    split at ha
    next own =>
      cases Option.some.inj ha
      obtain ⟨rfl, listens, before⟩ := h.copied round running m w found own
      obtain ⟨unwritten, notice⟩ := before pending
      refine ⟨listens, ?_, ?_, ?_⟩
      · rw [effective, running, Option.bind_some, unwritten, Option.getD_none]
        exact notice
      · rw [effective_answered running, if_pos server]
      · intro round' running' w' found'
        cases Option.some.inj running'
        have eq : w' = w := Option.some.inj (found'.symm.trans found)
        rw [eq, own]
    next => simp at ha
  · intro silent version ⟨noticed, own⟩
    rw [read] at silent
    split at silent
    next => simp at silent
    next other =>
      -- a check of an earlier watch of the name would not be the registration's own
      have ne : info.name ≠ name := by
        rw [server]
        rintro rfl
        exact other (own round running w found)
      refine ⟨?_, ?_⟩
      · rw [effective_answered running, if_neg ne]
        exact noticed
      · intro round' running' w' found'
        cases Option.some.inj running'
        exact own round running w' found'

theorem KeptWatch.step (h : KeptWatch name r listener c watch) (server : FromServer e)
    (keeps : Keeps name e) (move : ClientMove codec types c e c') :
    ∃ watch', WatchStep name r listener c e c' watch watch' := by
  cases move with
  | @registered m l version absent =>
    have ne : m ≠ name := by
      rintro rfl
      rw [h.stored] at absent
      simp at absent
    refine ⟨watch, h.step_of_quiet rfl ?_ ?_ rfl (Nat.lt_succ_of_lt h.fresh)⟩
    · intro m' w found own
      rcases Table.lookup_insert_some found with ⟨_, rfl⟩ | ⟨_, found⟩
      · exact absurd own (Nat.ne_of_gt h.fresh)
      · exact found
    · dsimp only
      rw [Table.lookup_insert_ne _ _ ne, h.stored]
  | same notCheck =>
    have quiet := answered_of_not_check (r := r) (c := c) notCheck
    exact ⟨watch, h.step_of_quiet quiet (fun m w found _ => found) h.stored rfl h.fresh⟩
  | applied applyVersion notCheck =>
    have quiet := answered_of_not_check (r := r) (c := c) notCheck
    exact ⟨watch, h.step_of_quiet quiet (fun m w found _ => found) h.stored rfl h.fresh⟩
  | @unwatched _ m applyVersion call =>
    have ne : m ≠ name := by
      rintro rfl
      rcases call with rfl | rfl
      · exact keeps.1 rfl
      · exact keeps.2 rfl
    have quiet : answered r c e = none := by
      rcases call with rfl | rfl <;> rfl
    refine ⟨watch, h.step_of_quiet quiet ?_ ?_ rfl h.fresh⟩
    · exact fun m' w found _ => (Table.lookup_erase_some found).2
    · dsimp only
      rw [Table.lookup_erase_ne _ ne, h.stored]
  | copied idle => exact ⟨watch, h.copy idle⟩
  | @checked m answer round w running pending found =>
    cases answer with
    | error err => exact ⟨watch, h.failed running⟩
    | ok info => exact ⟨watch, h.checked server running pending found⟩
  | wroteBack running done => exact ⟨_, h.writeBack running⟩

/-- The answers of a whole run, from the version last noticed on. -/
theorem KeptWatch.run (h : KeptWatch name r listener c watch) {events : List ClientEvent}
    (server : ∀ e ∈ events, FromServer e) (keeps : ∀ e ∈ events, Keeps name e)
    {t : ConfigClient text} (run : events.foldlM (clientStep codec types) c = some t)
    {last : Option ModuleVersion} (noticed : ∀ v, last = some v → LastAnswer name r c watch v) :
    Follows last (answers codec types r c events) ∧
      ∀ a ∈ answers codec types r c events, a.1.listener = listener := by
  induction events generalizing c watch last with
  | nil => exact ⟨trivial, by simp [answers]⟩
  | cons e events ih =>
    rw [List.foldlM_cons] at run
    obtain ⟨c', step, run⟩ := Option.bind_eq_some_iff.mp run
    obtain ⟨watch', next⟩ := h.step (server e (by simp)) (keeps e (by simp)) (clientStep_move step)
    have later : ∀ last : Option ModuleVersion,
        (∀ v, last = some v → LastAnswer name r c' watch' v) →
        Follows last (answers codec types r c' events) ∧
          ∀ a ∈ answers codec types r c' events, a.1.listener = listener :=
      fun last noticed => ih next.kept (fun e' mem => server e' (List.mem_cons_of_mem _ mem))
        (fun e' mem => keeps e' (List.mem_cons_of_mem _ mem)) run noticed
    rw [answers, step]
    cases got : answered r c e with
    | none => exact later last fun v hv => next.silent got v (noticed v hv)
    | some a =>
      obtain ⟨listens, notice, answer⟩ := next.answer a got
      obtain ⟨follows, all⟩ := later (some a.2.moduleVersion) fun v hv => by
        cases Option.some.inj hv
        exact answer
      refine ⟨⟨fun v hv => ?_, follows⟩, ?_⟩
      · rw [notice, (noticed v hv).noticed]
      · intro b mem
        rcases List.mem_cons.mp mem with rfl | mem
        · exact listens
        · exact all b mem

theorem deliveriesTo_step (move : ClientMove codec types c e c') :
    deliveriesTo r c' = deliveriesTo r c ++ deliveries types (answered r c e).toList := by
  have quiet : ∀ {e}, answered r c e = none →
      deliveriesTo r c = deliveriesTo r c ++ deliveries types (answered r c e).toList := by
    intro e h
    simp [h, deliveries]
  cases move with
  | registered => exact quiet rfl
  | same notCheck => exact quiet (answered_of_not_check notCheck)
  | applied _ notCheck => exact quiet (answered_of_not_check notCheck)
  | unwatched _ call => rcases call with rfl | rfl <;> exact quiet rfl
  | copied => exact quiet rfl
  | wroteBack => exact quiet rfl
  | @checked m answer round w running pending found =>
    cases answer with
    | error err => exact quiet rfl
    | ok info =>
      have read : answered r c (.check m (.ok info)) =
          if w.registration = r then some (w, info) else none := by
        simp only [answered, running, found, pending, true_and]
      have sent : deliveriesTo r (checkWatch codec types m w round c (.ok info)) =
          deliveriesTo r c ++ (notify types w info).toList.filter fun d => d.registration = r :=
        List.filter_append ..
      rw [sent, read]
      cases hd : notify types w info with
      | none => split <;> simp [deliveries, hd]
      | some d =>
        have registration := (notify_eq_some hd).2.1
        split
        next own => simp [deliveries, hd, registration, own]
        next other => simp [deliveries, registration, other]

theorem deliveriesTo_run {events : List ClientEvent} {t : ConfigClient text}
    (run : events.foldlM (clientStep codec types) c = some t) :
    deliveriesTo r t = deliveriesTo r c ++ deliveries types (answers codec types r c events) := by
  induction events generalizing c with
  | nil =>
    cases Option.some.inj run
    simp [answers, deliveries]
  | cons e events ih =>
    rw [List.foldlM_cons] at run
    obtain ⟨c', step, run⟩ := Option.bind_eq_some_iff.mp run
    rw [ih run, deliveriesTo_step (clientStep_move step), answers, step, deliveries, deliveries,
      deliveries, List.filterMap_append, List.append_assoc]

/-- Registration numbers are handed out in order. -/
structure Numbered (c : ConfigClient text) : Prop where
  stored : ∀ (m : Bytes) (w : ConfigWatchEntity), c.watches[m]? = some w →
    w.registration < c.registrations
  copied : ∀ round, c.round = some round → ∀ (m : Bytes) (w : ConfigWatchEntity),
    round.watches[m]? = some w → w.registration < c.registrations
  delivered : ∀ d ∈ c.delivered, d.registration < c.registrations

theorem Numbered.step (h : Numbered c) (move : ClientMove codec types c e c') : Numbered c' := by
  cases move with
  | registered =>
    refine ⟨?_, ?_, fun d mem => Nat.lt_succ_of_lt (h.delivered d mem)⟩
    · intro m w found
      rcases Table.lookup_insert_some found with ⟨_, rfl⟩ | ⟨_, found⟩
      · exact Nat.lt_succ_self _
      · exact Nat.lt_succ_of_lt (h.stored m w found)
    · exact fun round running m w found => Nat.lt_succ_of_lt (h.copied round running m w found)
  | same => exact h
  | applied => exact ⟨h.stored, h.copied, h.delivered⟩
  | unwatched =>
    exact ⟨fun m w found => h.stored m w (Table.lookup_erase_some found).2, h.copied, h.delivered⟩
  | copied =>
    refine ⟨h.stored, ?_, h.delivered⟩
    intro round running
    cases Option.some.inj running
    exact h.stored
  | wroteBack =>
    refine ⟨?_, fun round running => by simp at running, h.delivered⟩
    intro m w found
    dsimp only at found
    rw [lookup_writeUpdates] at found
    obtain ⟨before, hbefore, rfl⟩ := Option.map_eq_some_iff.mp found
    exact h.stored m before hbefore
  | @checked m answer round w running pending found =>
    have copied : ∀ rest updates, ∀ round', some (Round.mk round.watches rest updates) = some round' →
        ∀ (m : Bytes) (w : ConfigWatchEntity), round'.watches[m]? = some w →
          w.registration < c.registrations := by
      intro rest updates round' running'
      cases Option.some.inj running'
      exact h.copied round running
    cases answer with
    | error err => exact ⟨h.stored, copied _ _, h.delivered⟩
    | ok info =>
      refine ⟨h.stored, copied _ _, ?_⟩
      intro d mem
      rcases List.mem_append.mp mem with old | new
      · exact h.delivered d old
      · rw [(notify_eq_some (Option.mem_toList.mp new)).2.1]
        exact h.copied round running m w found

theorem numbered {cache : CacheProcess text}
    (h : Reach.From (clientStep codec types) (fun _ e => FromServer e) { cache := cache } c) :
    Numbered c := by
  apply h.invariant
  · refine ⟨fun m w found => ?_, fun round running => ?_, fun d mem => ?_⟩
    · simp at found
    · simp at running
    · simp at mem
  · exact fun s e t _ numbered _ step => numbered.step (clientStep_move step)

/-- The entry that a successful `watch_config` makes. -/
theorem watchConfig_kept (h : Numbered c) (watched : (watchConfig name listener c).2 = .ok ()) :
    ∃ watch, KeptWatch name c.registrations listener (watchConfig name listener c).1 watch := by
  unfold watchConfig at watched ⊢
  split at watched
  next => simp at watched
  next absent =>
    rw [if_neg absent]
    refine ⟨_, Table.lookup_insert_self _ _ _, rfl, rfl, Nat.lt_succ_self _, ?_, ?_⟩
    · intro m w found own
      rcases Table.lookup_insert_some found with ⟨same, _⟩ | ⟨_, found⟩
      · exact same.symm
      · exact absurd own (Nat.ne_of_lt (h.stored m w found))
    · intro round running m w found own
      exact absurd own (Nat.ne_of_lt (h.copied round running m w found))

theorem deliveriesTo_watchConfig (h : Numbered c) (listener : ConfigEventListener) :
    deliveriesTo c.registrations (watchConfig name listener c).1 = [] := by
  have untouched : (watchConfig name listener c).1.delivered = c.delivered := by
    unfold watchConfig
    split <;> rfl
  rw [deliveriesTo, untouched]
  apply List.filter_eq_nil_iff.mpr
  intro d mem own
  exact absurd (of_decide_eq_true own) (Nat.ne_of_lt (h.delivered d mem))

/-- The notifications of a watch that is kept form a chain exactly when there is
at most one of them, of a new config or from no version. -/
theorem notifications_chain_iff (cache : CacheProcess text)
    (reach : Reach.From (clientStep codec types) (fun _ e => FromServer e) { cache := cache } c)
    (newConfig : listener.onNewConfig = true)
    (watched : (watchConfig name listener c).2 = .ok ()) {events : List ClientEvent}
    (server : ∀ e ∈ events, FromServer e) (keeps : ∀ e ∈ events, Keeps name e)
    {t : ConfigClient text}
    (run : events.foldlM (clientStep codec types) (watchConfig name listener c).1 = some t) :
    Chained (c.applyVersion.getD name kZero) (deliveriesTo c.registrations t) ↔
      OneCall (c.applyVersion.getD name kZero)
        (answers codec types c.registrations (watchConfig name listener c).1 events) := by
  obtain ⟨watch, kept⟩ := watchConfig_kept (numbered reach) watched
  obtain ⟨follows, listens⟩ := kept.run server keeps run fun v (none : none = some v) => by simp at none
  rw [deliveriesTo_run run, deliveriesTo_watchConfig (numbered reach), List.nil_append]
  constructor
  · intro chained
    apply chained.oneCall follows
    intro a mem
    rw [listens a mem, newConfig]
  · exact fun oneCall => oneCall.chained types

end Runs

section Example

def rounds (majors : List Int) : List ClientEvent :=
  majors.flatMap fun major => [.copy, .check [97] (answerOf major), .writeBack]

theorem notifications_chain_rounds :
    ∃ t : ConfigClient ConfigInfo, (rounds [1, 1, 0]).foldlM (clientStep plainCodec someTypes)
        (watchConfig [97] listening { cache := emptyCache }).1 = some t ∧
      Chained kZero (deliveriesTo 0 t) ∧ (deliveriesTo 0 t).length = 1 := by
  have run : ((rounds [1, 1, 0]).foldlM (clientStep plainCodec someTypes)
      (watchConfig [97] listening ({ cache := emptyCache } : ConfigClient ConfigInfo)).1).map
      (fun t => (deliveriesTo 0 t).length) = some 1 := by decide
  obtain ⟨t, ht, one⟩ := Option.map_eq_some_iff.mp run
  have oneCall : OneCall kZero (answers plainCodec someTypes 0
      (watchConfig [97] listening ({ cache := emptyCache } : ConfigClient ConfigInfo)).1
      (rounds [1, 1, 0])) := ⟨by decide, by decide⟩
  have server : ∀ e ∈ rounds [1, 1, 0], FromServer e := by decide
  have keeps : ∀ e ∈ rounds [1, 1, 0], Keeps [97] e := by
    simp [rounds, Keeps]
  have reach : Reach.From (clientStep plainCodec someTypes) (fun _ e => FromServer e)
      { cache := emptyCache } ({ cache := emptyCache } : ConfigClient ConfigInfo) := Reach.From.start
  exact ⟨t, ht, (notifications_chain_iff emptyCache reach rfl rfl server keeps ht).mpr oneCall, one⟩

/-- The second version is announced as a change from 0.0.0, not from the first one. -/
theorem second_notification_breaks_chain :
    ¬ ∀ (text : Type) (codec : JsonCodec text) (types : ConfigTypes) (cache : CacheProcess text)
      (name : Bytes) (listener : ConfigEventListener) (events : List ClientEvent)
      (t : ConfigClient text), listener.onNewConfig = true → listener.onNewVersion = true →
      (∀ e ∈ events, FromServer e) → (∀ e ∈ events, Keeps name e) →
      events.foldlM (clientStep codec types) (watchConfig name listener { cache := cache }).1 = some t →
      Chained kZero (deliveriesTo 0 t) := by
  intro always
  have run : ((rounds [1, 2]).foldlM (clientStep plainCodec someTypes)
      (watchConfig [97] listening ({ cache := emptyCache } : ConfigClient ConfigInfo)).1).map
      (fun t => (deliveriesTo 0 t).map fun d => (d.callback, d.data.currentVersion, d.data.newVersion)) =
      some [(.onNewConfig, kZero, ⟨1, 2, 3⟩), (.onNewVersion, kZero, ⟨2, 2, 3⟩)] := by decide
  obtain ⟨t, ht, sent⟩ := Option.map_eq_some_iff.mp run
  have server : ∀ e ∈ rounds [1, 2], FromServer e := by decide
  have keeps : ∀ e ∈ rounds [1, 2], Keeps [97] e := by
    simp [rounds, Keeps]
  have linked := (always ConfigInfo plainCodec someTypes emptyCache [97] listening _ t rfl rfl server
    keeps ht).linked
  obtain ⟨first, rest, split, hfirst, hrest⟩ := List.map_eq_cons_iff.mp sent
  obtain ⟨second, none, split', hsecond, _⟩ := List.map_eq_cons_iff.mp hrest
  rw [split, split'] at linked
  have version := (Prod.mk.inj (Prod.mk.inj hfirst).2).2
  have callback := (Prod.mk.inj hsecond).1
  have current := (Prod.mk.inj (Prod.mk.inj hsecond).2).1
  have chained := linked.2.1 callback
  rw [current, version] at chained
  exact absurd chained (by decide)

end Example

end EA
