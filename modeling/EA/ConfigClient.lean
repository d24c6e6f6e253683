import EA.ConfigCache
import EA.Lib.Reach

namespace EA

open ByteString

/-- Which of the two callbacks of a listener are set. -/
structure ConfigEventListener where
  onNewConfig : Bool
  onNewVersion : Bool
deriving DecidableEq

structure ConfigCallbackData where
  configName : Bytes
  currentVersion : ModuleVersion
  newVersion : ModuleVersion
  newContent : Bytes
  type : Bytes
deriving DecidableEq

/-- The code keeps the first two fields. The others are history: the number of
the `watch_config` call that made the entry, and the version it started from. -/
structure ConfigWatchEntity where
  noticeVersion : ModuleVersion
  listener : ConfigEventListener
  registration : Nat
  registered : ModuleVersion
deriving DecidableEq

inductive Callback where
  | onNewConfig | onNewVersion
deriving DecidableEq

/-- A callback that ran for a registration. -/
structure Delivery where
  registration : Nat
  callback : Callback
  data : ConfigCallbackData
deriving DecidableEq

abbrev WatchTable := Table Bytes ConfigWatchEntity

/-- The locals of `period_check` in a round: its copy of `_watches`, the names of
the copy that the loop has still to visit, and the updates to write back. -/
structure Round where
  watches : WatchTable
  pending : List Bytes
  updates : List (Bytes × ModuleVersion) := []

structure ConfigClient (text : Type) where
  applyVersion : Table Bytes ModuleVersion := ∅
  watches : WatchTable := ∅
  cache : CacheProcess text := {}
  round : Option Round := none
  registrations : Nat := 0
  delivered : List Delivery := []

def kZero : ModuleVersion := {}

section Calls

variable {text : Type}

def watchConfig (name : Bytes) (listener : ConfigEventListener) (c : ConfigClient text) :
    ConfigClient text × Except Status Unit :=
  if name ∈ c.watches then (c, .error ⟨.alreadyExists, []⟩)
  else
    let version := c.applyVersion.getD name kZero
    ({ c with
       watches := c.watches.insert name ⟨version, listener, c.registrations, version⟩
       registrations := c.registrations + 1 }, .ok ())

/-- `do_unwatch_config`, which `unwatch_config` calls under the lock. -/
def unwatchConfig (name : Bytes) (c : ConfigClient text) :
    ConfigClient text × Except Status Unit :=
  if name ∈ c.watches then ({ c with watches := c.watches.erase name }, .ok ())
  else (c, .error ⟨.notFound, []⟩)

def applyConfig (name : Bytes) (version : ModuleVersion) (c : ConfigClient text) :
    ConfigClient text × Except Status Unit :=
  ({ c with applyVersion := c.applyVersion.insert name version }, .ok ())

def unapplyConfig (name : Bytes) (c : ConfigClient text) : ConfigClient text × Except Status Unit :=
  let unwatched := (unwatchConfig name c).1
  if name ∈ unwatched.applyVersion then
    ({ unwatched with applyVersion := unwatched.applyVersion.erase name }, .ok ())
  else (unwatched, .error ⟨.notFound, ascii "not found config:" ++ name⟩)

end Calls

/-- The callback of one loop pass. Both branches pass `kZero` as the current version. -/
def notify (types : ConfigTypes) (entity : ConfigWatchEntity) (info : ConfigInfo) :
    Option Delivery :=
  let newView := info.moduleVersion
  let data : ConfigCallbackData :=
    ⟨info.name, kZero, newView, info.content, configTypeToString types info.type⟩
  if entity.noticeVersion = kZero then
    if entity.listener.onNewConfig then some ⟨entity.registration, .onNewConfig, data⟩ else none
  else if compare entity.noticeVersion newView = .lt then
    if entity.listener.onNewVersion then some ⟨entity.registration, .onNewVersion, data⟩ else none
  else none

/-- Whether a watch has its listener called for an answered version. -/
def called (entity : ConfigWatchEntity) (newView : ModuleVersion) : Bool :=
  if entity.noticeVersion = kZero then entity.listener.onNewConfig
  else compare entity.noticeVersion newView == .lt && entity.listener.onNewVersion

theorem notify_of_called (types : ConfigTypes) {entity : ConfigWatchEntity} {info : ConfigInfo}
    (h : called entity info.moduleVersion = true) :
    ∃ delivery, notify types entity info = some delivery ∧
      delivery.registration = entity.registration ∧
      delivery.data.newVersion = info.moduleVersion := by
  unfold called at h
  unfold notify
  split at h
  next zero => exact ⟨_, by simp only [if_pos zero, if_pos h]; rfl, rfl, rfl⟩
  next nonzero =>
    obtain ⟨less, set⟩ := Bool.and_eq_true_iff.mp h
    have less : compare entity.noticeVersion info.moduleVersion = .lt := by simpa using less
    exact ⟨_, by simp only [if_neg nonzero, if_pos less, if_pos set]; rfl, rfl, rfl⟩

theorem notify_eq_some {types : ConfigTypes} {entity : ConfigWatchEntity} {info : ConfigInfo}
    {delivery : Delivery} (h : notify types entity info = some delivery) :
    called entity info.moduleVersion = true ∧ delivery.registration = entity.registration ∧
      delivery.data.currentVersion = kZero ∧ delivery.data.newVersion = info.moduleVersion ∧
      (delivery.callback = .onNewConfig ↔ entity.noticeVersion = kZero) := by
  unfold notify at h
  unfold called
  dsimp only at h
  split at h
  next zero =>
    split at h
    next set =>
      cases Option.some.inj h
      exact ⟨by rw [if_pos zero, set], rfl, rfl, rfl, by simp [zero]⟩
    next => simp at h
  next nonzero =>
    split at h
    next less =>
      split at h
      next set =>
        cases Option.some.inj h
        exact ⟨by rw [if_neg nonzero, less, set]; rfl, rfl, rfl, rfl, by simp [nonzero]⟩
      next => simp at h
    next => simp at h

theorem notify_of_not_called {types : ConfigTypes} {entity : ConfigWatchEntity} {info : ConfigInfo}
    (h : called entity info.moduleVersion = false) : notify types entity info = none := by
  cases sent : notify types entity info with
  | none => rfl
  | some delivery =>
    have call := (notify_eq_some sent).1
    simp [h] at call

/-- Writes one noticed version back by name, whatever watch has the name by then. -/
def writeUpdate (watches : WatchTable) (update : Bytes × ModuleVersion) : WatchTable :=
  match watches[update.1]? with
  | none => watches
  | some entity => watches.insert update.1 { entity with noticeVersion := update.2 }

/-- The atomic steps: a call of the interface takes the lock once, a round of
`period_check` takes it to copy and to write back, and not in between. -/
inductive ClientEvent where
  | watchConfig (name : Bytes) (listener : ConfigEventListener)
  | unwatchConfig (name : Bytes)
  | apply (name : Bytes) (version : ModuleVersion)
  | unapply (name : Bytes)
  | copy
  | check (name : Bytes) (answer : Except Status ConfigInfo)
  | writeBack

section Steps

variable {text : Type} (codec : JsonCodec text) (types : ConfigTypes)

/-- One pass of the loop, with the answer of `get_config_latest`. -/
def checkWatch (name : Bytes) (entity : ConfigWatchEntity) (round : Round) (c : ConfigClient text) :
    Except Status ConfigInfo → ConfigClient text
  | .error _ => { c with round := some { round with pending := round.pending.filter (· ≠ name) } }
  | .ok info =>
    { c with
      cache := (addConfig codec types info c.cache).1
      delivered := c.delivered ++ (notify types entity info).toList
      round := some { round with
        pending := round.pending.filter (· ≠ name)
        updates := round.updates ++ [(info.name, info.moduleVersion)] } }

def clientStep (c : ConfigClient text) : ClientEvent → Option (ConfigClient text)
  | .watchConfig name listener => some (watchConfig name listener c).1
  | .unwatchConfig name => some (unwatchConfig name c).1
  | .apply name version => some (applyConfig name version c).1
  | .unapply name => some (unapplyConfig name c).1
  | .copy =>
    match c.round with
    | none => some { c with round := some { watches := c.watches, pending := c.watches.keys } }
    | some _ => none
  | .check name answer =>
    match c.round with
    | none => none
    | some round =>
      if name ∈ round.pending then
        (round.watches[name]?).map fun entity => checkWatch codec types name entity round c answer
      else none
  | .writeBack =>
    match c.round with
    | none => none
    | some round =>
      if round.pending = [] then
        some { c with watches := round.updates.foldl writeUpdate c.watches, round := none }
      else none

end Steps

/-- The server answers with a config of the name it was asked for. -/
def FromServer : ClientEvent → Prop
  | .check name (.ok info) => info.name = name
  | _ => True

instance : DecidablePred FromServer
  | .check name (.ok info) => inferInstanceAs (Decidable (info.name = name))
  | .check _ (.error _) => isTrue trivial
  | .watchConfig .. => isTrue trivial
  | .unwatchConfig _ => isTrue trivial
  | .apply .. => isTrue trivial
  | .unapply _ => isTrue trivial
  | .copy => isTrue trivial
  | .writeBack => isTrue trivial

section Moves

variable {text : Type} {codec : JsonCodec text} {types : ConfigTypes}

/-- Everything a step can do. -/
inductive ClientMove (codec : JsonCodec text) (types : ConfigTypes) (c : ConfigClient text) :
    ClientEvent → ConfigClient text → Prop
  | registered {name : Bytes} {listener : ConfigEventListener} (version : ModuleVersion) :
      c.watches[name]? = none →
      ClientMove codec types c (.watchConfig name listener)
        { c with
          watches := c.watches.insert name ⟨version, listener, c.registrations, version⟩
          registrations := c.registrations + 1 }
  | same {e : ClientEvent} : (∀ name answer, e ≠ .check name answer) → ClientMove codec types c e c
  | applied {e : ClientEvent} (applyVersion : Table Bytes ModuleVersion) :
      (∀ name answer, e ≠ .check name answer) →
      ClientMove codec types c e { c with applyVersion := applyVersion }
  | unwatched {e : ClientEvent} {name : Bytes} (applyVersion : Table Bytes ModuleVersion) :
      e = .unwatchConfig name ∨ e = .unapply name →
      ClientMove codec types c e
        { c with watches := c.watches.erase name, applyVersion := applyVersion }
  | copied : c.round = none →
      ClientMove codec types c .copy
        { c with round := some { watches := c.watches, pending := c.watches.keys } }
  | checked {name : Bytes} {answer : Except Status ConfigInfo} {round : Round}
      {entity : ConfigWatchEntity} : c.round = some round → name ∈ round.pending →
      round.watches[name]? = some entity →
      ClientMove codec types c (.check name answer)
        (checkWatch codec types name entity round c answer)
  | wroteBack {round : Round} : c.round = some round → round.pending = [] →
      ClientMove codec types c .writeBack
        { c with watches := round.updates.foldl writeUpdate c.watches, round := none }

theorem unwatchConfig_move {c : ConfigClient text} {e : ClientEvent} {name : Bytes}
    (call : e = .unwatchConfig name ∨ e = .unapply name) :
    ClientMove codec types c e (unwatchConfig name c).1 := by
  unfold unwatchConfig
  split
  next => exact ClientMove.unwatched c.applyVersion call
  next =>
    apply ClientMove.same
    rcases call with rfl | rfl <;> simp

theorem clientStep_move {c c' : ConfigClient text} {e : ClientEvent}
    (h : clientStep codec types c e = some c') : ClientMove codec types c e c' := by
  cases e with
  | watchConfig name listener =>
    cases Option.some.inj h
    unfold watchConfig
    split
    next => exact ClientMove.same (by simp)
    next absent =>
      refine ClientMove.registered _ ?_
      simpa using absent
  | unwatchConfig name =>
    cases Option.some.inj h
    exact unwatchConfig_move (Or.inl rfl)
  | apply name version =>
    cases Option.some.inj h
    exact ClientMove.applied _ (by simp)
  | unapply name =>
    cases Option.some.inj h
    unfold unapplyConfig
    dsimp only
    split
    next =>
      unfold unwatchConfig
      split
      next => exact ClientMove.unwatched _ (Or.inr rfl)
      next => exact ClientMove.applied _ (by simp)
    next => exact unwatchConfig_move (Or.inr rfl)
  | copy =>
    simp only [clientStep] at h
    split at h
    next idle =>
      cases Option.some.inj h
      exact ClientMove.copied idle
    next => simp at h
  | check name answer =>
    simp only [clientStep] at h
    split at h
    next => simp at h
    next round running =>
      split at h
      next pending =>
        obtain ⟨entity, found, rfl⟩ := Option.map_eq_some_iff.mp h
        exact ClientMove.checked running pending found
      next => simp at h
  | writeBack =>
    simp only [clientStep] at h
    split at h
    next => simp at h
    next round running =>
      split at h
      next done =>
        cases Option.some.inj h
        exact ClientMove.wroteBack running done
      next => simp at h

end Moves

/-- The version that the updates of a round leave for a name. -/
def lastUpdate (name : Bytes) (updates : List (Bytes × ModuleVersion)) : Option ModuleVersion :=
  updates.foldl (fun last update => if update.1 = name then some update.2 else last) none

theorem lastUpdate_concat (name : Bytes) (updates : List (Bytes × ModuleVersion))
    (update : Bytes × ModuleVersion) : lastUpdate name (updates ++ [update]) =
      if update.1 = name then some update.2 else lastUpdate name updates := by
  rw [lastUpdate, List.foldl_append]
  rfl

theorem mem_of_lastUpdate {name : Bytes} {updates : List (Bytes × ModuleVersion)}
    {version : ModuleVersion} (h : lastUpdate name updates = some version) :
    (name, version) ∈ updates := by
  induction updates using List.reverseRecOn with
  | nil => simp [lastUpdate] at h
  | append_singleton updates update ih =>
    rw [lastUpdate_concat] at h
    split at h
    next same =>
      cases Option.some.inj h
      simp [← same]
    next => exact List.mem_append_left _ (ih h)

theorem lookup_writeUpdate_self (watches : WatchTable) (name : Bytes) (version : ModuleVersion) :
    (writeUpdate watches (name, version))[name]? = (watches[name]?).map fun entity =>
      { entity with noticeVersion := version } := by
  unfold writeUpdate
  split
  next absent =>
    dsimp only at absent
    rw [absent]
    rfl
  next entity found =>
    dsimp only at found
    rw [Table.lookup_insert_self, found]
    rfl

theorem lookup_writeUpdate_ne (watches : WatchTable) {update : Bytes × ModuleVersion} {name : Bytes}
    (ne : update.1 ≠ name) : (writeUpdate watches update)[name]? = watches[name]? := by
  unfold writeUpdate
  split
  next => rfl
  next => exact Table.lookup_insert_ne _ _ ne

theorem lookup_writeUpdates (updates : List (Bytes × ModuleVersion)) (watches : WatchTable)
    (name : Bytes) : (updates.foldl writeUpdate watches)[name]? = (watches[name]?).map fun entity =>
      { entity with noticeVersion := (lastUpdate name updates).getD entity.noticeVersion } := by
  induction updates using List.reverseRecOn with
  | nil => simp [lastUpdate]
  | append_singleton updates update ih =>
    rw [List.foldl_append, lastUpdate_concat, List.foldl_cons, List.foldl_nil]
    obtain ⟨updated, version⟩ := update
    by_cases same : updated = name
    · subst updated
      rw [lookup_writeUpdate_self, ih, if_pos rfl, Option.map_map]
      rfl
    · rw [lookup_writeUpdate_ne _ same, ih, if_neg same]

/-! A listener and an answer to run things on. -/

def listening : ConfigEventListener := ⟨true, true⟩

def answerOf (major : Int) : Except Status ConfigInfo := .ok (versioned major)

end EA
