import EA.ConfigClient

namespace EA

section Delivered

variable {text : Type} {codec : JsonCodec text} {types : ConfigTypes} {c c' : ConfigClient text}

def DeliveredTo (delivered : List Delivery) (registration : Nat) (version : ModuleVersion) : Prop :=
  ∃ d ∈ delivered, d.registration = registration ∧ d.data.newVersion = version

/-- A notice version that differs from the registered version was delivered to
the very registration that has it. -/
def NoticesDelivered (c : ConfigClient text) : Prop :=
  ∀ (name : Bytes) (entity : ConfigWatchEntity), c.watches[name]? = some entity →
    entity.noticeVersion ≠ entity.registered →
    DeliveredTo c.delivered entity.registration entity.noticeVersion

/-- The version to be written to a watch is one it has already, or it comes from
a check of this very watch that called its listener. -/
def heard (copied : Option ConfigWatchEntity) (entity : ConfigWatchEntity)
    (version : ModuleVersion) : Bool :=
  version = entity.noticeVersion || version = entity.registered ||
    copied.any fun copied =>
      decide (copied.registration = entity.registration) && called copied version

/-- All that a write-back changes has been heard. -/
def writesHeard (c : ConfigClient text) : ClientEvent → Bool
  | .writeBack =>
    c.round.all fun round => round.updates.all fun update =>
      (c.watches[update.1]?).all fun entity =>
        heard (round.watches[update.1]?) entity update.2
  | _ => true

theorem heard_of_writesHeard (h : writesHeard c .writeBack = true) {round : Round}
    (running : c.round = some round) {name : Bytes} {version : ModuleVersion}
    (mem : (name, version) ∈ round.updates) {entity : ConfigWatchEntity}
    (found : c.watches[name]? = some entity) :
    heard (round.watches[name]?) entity version = true := by
  simp only [writesHeard, running, Option.all_some, List.all_eq_true] at h
  have here := h _ mem
  simpa only [found, Option.all_some] using here

/-- The round has delivered the answers of the checks that called a listener. -/
def RoundDelivered (c : ConfigClient text) : Prop :=
  ∀ round, c.round = some round → ∀ (name : Bytes) (version : ModuleVersion),
    (name, version) ∈ round.updates → ∀ copied : ConfigWatchEntity,
    round.watches[name]? = some copied → called copied version = true →
    DeliveredTo c.delivered copied.registration version

theorem DeliveredTo.mono {delivered more : List Delivery} {registration : Nat}
    {version : ModuleVersion} (h : DeliveredTo delivered registration version) :
    DeliveredTo (delivered ++ more) registration version := by
  obtain ⟨d, mem, same⟩ := h
  exact ⟨d, List.mem_append_left _ mem, same⟩

theorem RoundDelivered.step (h : RoundDelivered c) {e : ClientEvent} (server : FromServer e)
    (move : ClientMove codec types c e c') : RoundDelivered c' := by
  cases move with
  | registered => exact h
  | same => exact h
  | applied => exact h
  | unwatched => exact h
  | copied idle =>
    intro round running name version mem
    cases Option.some.inj running
    simp at mem
  | wroteBack =>
    intro round running
    simp at running
  | @checked name answer round entity running pending found =>
    cases answer with
    | error err =>
      intro round' running'
      cases Option.some.inj running'
      exact h round running
    | ok info =>
      intro round' running'
      cases Option.some.inj running'
      intro name' version mem copied found' call
      rcases List.mem_append.mp mem with old | new
      · exact (h round running name' version old copied found' call).mono
      · obtain ⟨rfl, rfl⟩ := Prod.mk.inj (List.mem_singleton.mp new)
        have asked : info.name = name := server
        have eq : copied = entity := by
          dsimp only at found'
          rw [asked, found] at found'
          exact (Option.some.inj found').symm
        subst copied
        obtain ⟨d, hd, registration, newVersion⟩ := notify_of_called types call
        refine ⟨d, ?_, registration, newVersion⟩
        simp [checkWatch, hd]

theorem NoticesDelivered.writeBack (h : NoticesDelivered c) (round : Round)
    (running : c.round = some round) (delivered : RoundDelivered c)
    (allHeard : writesHeard c .writeBack = true) :
    NoticesDelivered { c with watches := round.updates.foldl writeUpdate c.watches, round := none } := by
  intro name entity found differs
  dsimp only at found
  rw [lookup_writeUpdates] at found
  obtain ⟨before, hbefore, rfl⟩ := Option.map_eq_some_iff.mp found
  cases written : lastUpdate name round.updates with
  | none =>
    simp only [written, Option.getD_none] at differs ⊢
    exact h name before hbefore differs
  | some version =>
    have mem := mem_of_lastUpdate written
    have was_heard := heard_of_writesHeard allHeard running mem hbefore
    simp only [written, Option.getD_some] at differs ⊢
    by_cases stored : version = before.noticeVersion
    · subst version
      exact h name before hbefore differs
    · simp only [heard, stored, differs, decide_false, Bool.false_or] at was_heard
      cases hcopied : round.watches[name]? with
      | none => simp [hcopied] at was_heard
      | some copied =>
        simp only [hcopied, Option.any_some, Bool.and_eq_true, decide_eq_true_eq] at was_heard
        have here := delivered round running name version mem copied hcopied was_heard.2
        rw [was_heard.1] at here
        exact here

theorem NoticesDelivered.step (h : NoticesDelivered c) {e : ClientEvent}
    (delivered : RoundDelivered c) (allHeard : writesHeard c e = true)
    (move : ClientMove codec types c e c') : NoticesDelivered c' := by
  cases move with
  | @registered name listener version absent =>
    intro name' entity found differs
    rcases Table.lookup_insert_some found with ⟨_, rfl⟩ | ⟨_, found⟩
    · exact absurd rfl differs
    · exact h name' entity found differs
  | same => exact h
  | applied => exact h
  | unwatched =>
    intro name' entity found
    exact h name' entity (Table.lookup_erase_some found).2
  | copied => exact h
  | @checked name answer round entity running pending found =>
    cases answer with
    | error err => exact h
    | ok info => exact fun name' watch found' differs => (h name' watch found' differs).mono
  | wroteBack running done => exact h.writeBack _ running delivered allHeard

/-- Whatever calls come between the copy and the write-back of a round: as long as
write-backs change only what has been heard, every changed notice version was
delivered to the registration that has it. -/
theorem notices_delivered (cache : CacheProcess text)
    (h : Reach.From (clientStep codec types) (fun c e => FromServer e ∧ writesHeard c e = true)
      { cache := cache } c) : NoticesDelivered c := by
  have both : NoticesDelivered c ∧ RoundDelivered c := by
    apply h.invariant
    · constructor
      · intro name entity found
        simp at found
      · intro round running
        simp at running
    · intro s e t _ ⟨notices, round⟩ ⟨server, allHeard⟩ step
      have move := clientStep_move step
      exact ⟨notices.step round allHeard move, round.step server move⟩
  exact both.1

end Delivered

section Example

def watchedRound : List ClientEvent :=
  [.watchConfig [97] listening, .copy, .check [97] (answerOf 1), .writeBack]

theorem notices_delivered_watchedRound :
    ∃ c : ConfigClient ConfigInfo, watchedRound.foldlM
        (fun (c : ConfigClient ConfigInfo) e => if FromServer e ∧ writesHeard c e = true then
          clientStep plainCodec someTypes c e else none) { cache := emptyCache } = some c ∧
      NoticesDelivered c ∧
      (c.watches[([97] : Bytes)]?).map ConfigWatchEntity.noticeVersion = some ⟨1, 2, 3⟩ := by
  have run : (watchedRound.foldlM
      (fun (c : ConfigClient ConfigInfo) e => if FromServer e ∧ writesHeard c e = true then
        clientStep plainCodec someTypes c e else none) { cache := emptyCache }).map
      (fun c => (c.watches[([97] : Bytes)]?).map ConfigWatchEntity.noticeVersion) =
      some (some ⟨1, 2, 3⟩) := by decide
  obtain ⟨c, hc, notice⟩ := Option.map_eq_some_iff.mp run
  exact ⟨c, hc, notices_delivered emptyCache (Reach.From.of_checked hc), notice⟩

/-- The versions that the server answers for one name, in the order of the run. -/
def answersFor (name : Bytes) (events : List ClientEvent) : List ModuleVersion :=
  events.filterMap fun e =>
    match e with
    | .check n (.ok info) => if n = name then some info.moduleVersion else none
    | _ => none

def NeverDecrease (events : List ClientEvent) : Prop :=
  ∀ name, (answersFor name events).Pairwise fun earlier later => compare later earlier ≠ .lt

/-- The watch is replaced between the copy and the write-back. -/
def replacedInRound : List ClientEvent :=
  [.watchConfig [97] listening, .copy, .unwatchConfig [97], .watchConfig [97] listening,
    .check [97] (answerOf 1), .writeBack]

theorem replaced_watch_misses_its_version :
    ¬ ∀ (text : Type) (codec : JsonCodec text) (types : ConfigTypes) (cache : CacheProcess text)
      (events : List ClientEvent) (c : ConfigClient text), (∀ e ∈ events, FromServer e) →
      NeverDecrease events → events.foldlM (clientStep codec types) { cache := cache } = some c →
      NoticesDelivered c := by
  intro always
  have server : ∀ e ∈ replacedInRound, FromServer e := by decide
  have steady : NeverDecrease replacedInRound := by
    intro name
    by_cases asked : ([97] : Bytes) = name
    · subst name
      decide
    · simp [answersFor, replacedInRound, answerOf, asked]
  have run : (replacedInRound.foldlM (clientStep plainCodec someTypes)
      ({ cache := emptyCache } : ConfigClient ConfigInfo)).map (fun c =>
        (c.watches[([97] : Bytes)]?, c.delivered.map Delivery.registration)) =
      some (some ⟨⟨1, 2, 3⟩, listening, 1, kZero⟩, [0]) := by decide
  obtain ⟨c, hc, final⟩ := Option.map_eq_some_iff.mp run
  obtain ⟨stored, heardBy⟩ := Prod.mk.inj final
  have delivered := always ConfigInfo plainCodec someTypes emptyCache _ c server steady hc
  obtain ⟨d, mem, registration, _⟩ := delivered [97] _ stored (by decide)
  have among : d.registration ∈ c.delivered.map Delivery.registration := List.mem_map_of_mem mem
  rw [heardBy, registration] at among
  exact absurd among (by decide)

end Example

end EA
