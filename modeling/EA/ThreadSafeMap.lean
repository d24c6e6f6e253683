import EA.Lib.Lockstep
import EA.Lib.Shards

set_option linter.unusedSectionVars false

namespace EA

/-- A callback answers, and changes the value it is called with. `σ` is what it has
captured, which it reads and changes too. -/
abbrev ValueCallback (σ Value ρ : Type) := σ → Value → ρ × σ × Value

/-- Each of the maps is under a lock of its own, which the operations on its keys take. -/
structure ThreadSafeMap (Key Value : Type) [DecidableEq Key] [Hashable Key]
    (mapCount : ℕ+) where
  map : Fin mapCount → Std.HashMap Key Value := fun _ => ∅

/-- Whether a traversal got to the end, and what it has left. -/
structure Traversal (σ Map : Type) where
  finished : Bool
  captured : σ
  map : Map

section Model

variable {σ ρ Key Value : Type} [DecidableEq Key] [Hashable Key] [Inhabited Value]
  {mapCount : ℕ+}

/-- The callback of a traversal that nothing ends. -/
def ValueCallback.throughout (call : ValueCallback σ Value Unit) : ValueCallback σ Value Bool :=
  fun s value => (true, (call s value).2)

/-- The loop over the entries of a map, which `call` ends where it answers `false`. -/
def visit (call : Key → ValueCallback σ Value Bool) :
    List (Key × Value) → σ → Std.HashMap Key Value → Traversal σ (Std.HashMap Key Value)
  | [], s, map => ⟨true, s, map⟩
  | (key, value) :: rest, s, map =>
    let r := call key s value
    let changed := map.insert key r.2.2
    if r.1 then visit call rest r.2.1 changed else ⟨false, r.2.1, changed⟩

/-- `call(map[key])`, where the subscript puts a default value under a missing key. -/
def callAt (call : ValueCallback σ Value ρ) (s : σ) (key : Key) (map : Std.HashMap Key Value) :
    (ρ × σ) × Std.HashMap Key Value :=
  let r := call s (map.getD key default)
  ((r.1, r.2.1), (map.insertIfNew key default).insert key r.2.2)

namespace ThreadSafeMap

def mapIdx (key : Key) : Fin mapCount :=
  ⟨(hash key).toNat % mapCount, Nat.mod_lt _ mapCount.pos⟩

variable (m : ThreadSafeMap Key Value mapCount)

def setMap (i : Fin mapCount) (map : Std.HashMap Key Value) : ThreadSafeMap Key Value mapCount :=
  { m with map := Function.update m.map i map }

/-- What an operation does under the lock of the key's map. -/
def locked (key : Key) (body : Std.HashMap Key Value → ρ × Std.HashMap Key Value) :
    ρ × ThreadSafeMap Key Value mapCount :=
  let idx := mapIdx key
  let r := body (m.map idx)
  (r.1, m.setMap idx r.2)

def count (key : Key) : Nat × ThreadSafeMap Key Value mapCount :=
  m.locked key fun map => (if key ∈ map then 1 else 0, map)

/-- The sum is taken in 32 bits. -/
def size : UInt32 :=
  (List.finRange mapCount).foldl (fun size i => size + UInt32.ofNat (m.map i).size) 0

def set (key : Key) (value : Value) : Unit × ThreadSafeMap Key Value mapCount :=
  m.locked key fun map => ((), map.insert key value)

def insertInitIfNotExist (key : Key) (call : ValueCallback σ Value Int) (s : σ) :
    (Bool × σ) × ThreadSafeMap Key Value mapCount :=
  m.locked key fun map =>
    if key ∈ map then ((false, s), map)
    else
      let r := callAt call s key map
      if r.1.1 = 0 then ((true, r.1.2), r.2) else ((false, r.1.2), r.2.erase key)

/-- A missing key reads as a static value that nothing ever changes. -/
def get (key : Key) : Value × ThreadSafeMap Key Value mapCount :=
  m.locked key fun map =>
    if key ∈ map then (map.getD key default, map.insertIfNew key default) else (default, map)

def callAndGet (key : Key) (call : ValueCallback σ Value Unit) (s : σ) :
    (Bool × σ) × ThreadSafeMap Key Value mapCount :=
  m.locked key fun map =>
    if key ∈ map then
      let r := callAt call s key map
      ((true, r.1.2), r.2)
    else ((false, s), map)

def getOrPut (key : Key) (value : Value) : Value × ThreadSafeMap Key Value mapCount :=
  m.locked key fun map =>
    if key ∈ map then (map.getD key default, map.insertIfNew key default)
    else (value, map.insert key value)

def getOrPutCall (key : Key) (call : ValueCallback σ Value Value) (s : σ) :
    (Value × σ) × ThreadSafeMap Key Value mapCount :=
  m.locked key fun map =>
    if key ∈ map then ((map.getD key default, s), map.insertIfNew key default)
    else callAt call s key map

/-- `operator[]`, with the use that is made of its reference once the lock is released. -/
def subscript (key : Key) (use : ValueCallback σ Value Unit) (s : σ) :
    (Unit × σ) × ThreadSafeMap Key Value mapCount :=
  m.locked key fun map => callAt use s key map

def exist (key : Key) : Bool × ThreadSafeMap Key Value mapCount :=
  m.locked key fun map => (decide (key ∈ map), map)

def erase (key : Key) : Nat × ThreadSafeMap Key Value mapCount :=
  m.locked key fun map => (if key ∈ map then 1 else 0, map.erase key)

def callAndErase (key : Key) (call : ValueCallback σ Value Unit) (s : σ) :
    (Bool × σ) × ThreadSafeMap Key Value mapCount :=
  m.locked key fun map =>
    if key ∈ map then
      let r := callAt call s key map
      ((true, r.1.2), r.2.erase key)
    else ((false, s), map)

/-- The loop over the maps that the traversals have in common. Where it is not
`inPlace` each map is copied and the callback gets the values of the copy. -/
def visitMaps (inPlace : Bool) (call : Key → ValueCallback σ Value Bool) :
    List (Fin mapCount) → σ → ThreadSafeMap Key Value mapCount →
      Traversal σ (ThreadSafeMap Key Value mapCount)
  | [], s, m => ⟨true, s, m⟩
  | i :: rest, s, m =>
    let here := visit call (m.map i).toList s (m.map i)
    let m := if inPlace then m.setMap i here.map else m
    if here.finished then visitMaps inPlace call rest here.captured m
    else ⟨false, here.captured, m⟩

def traverse (call : ValueCallback σ Value Unit) (s : σ) :
    Traversal σ (ThreadSafeMap Key Value mapCount) :=
  visitMaps true (fun _ => call.throughout) (List.finRange mapCount) s m

def traverseWithKeyValue (call : Key → ValueCallback σ Value Unit) (s : σ) :
    Traversal σ (ThreadSafeMap Key Value mapCount) :=
  visitMaps true (fun key => (call key).throughout) (List.finRange mapCount) s m

def traverseCopy (call : ValueCallback σ Value Unit) (s : σ) :
    Traversal σ (ThreadSafeMap Key Value mapCount) :=
  visitMaps false (fun _ => call.throughout) (List.finRange mapCount) s m

def clear : ThreadSafeMap Key Value mapCount :=
  (List.finRange mapCount).foldl (fun m i => m.setMap i ∅) m

/-- `init` is the value that the further arguments construct. -/
def initIfNotExistElseUpdate (key : Key) (alwaysUpdate : Bool) (call : ValueCallback σ Value Unit)
    (init : Value) (s : σ) : (Bool × σ) × ThreadSafeMap Key Value mapCount :=
  m.locked key fun map =>
    match map[key]? with
    | none =>
      let map := map.insertIfNew key init
      if alwaysUpdate then
        let r := callAt call s key map
        ((false, r.1.2), r.2)
      else ((false, s), map)
    | some value =>
      let r := call s value
      ((true, r.2.1), map.insert key r.2.2)

def update (key : Key) (call : ValueCallback σ Value Unit) (s : σ) :
    (Bool × σ) × ThreadSafeMap Key Value mapCount :=
  m.locked key fun map =>
    match map[key]? with
    | none => ((false, s), map)
    | some value =>
      let r := call s value
      ((true, r.2.1), map.insert key r.2.2)

def traverseWithEarlyReturn (call : ValueCallback σ Value Bool) (s : σ) :
    Traversal σ (ThreadSafeMap Key Value mapCount) :=
  visitMaps true (fun _ => call) (List.finRange mapCount) s m

end ThreadSafeMap

/-- An operation on the entry of one key. -/
inductive KeyOp (σ Value : Type) where
  | count
  | set (value : Value)
  | insertInitIfNotExist (call : ValueCallback σ Value Int)
  | get
  | callAndGet (call : ValueCallback σ Value Unit)
  | getOrPut (value : Value)
  | getOrPutCall (call : ValueCallback σ Value Value)
  | subscript (use : ValueCallback σ Value Unit)
  | exist
  | erase
  | callAndErase (call : ValueCallback σ Value Unit)
  | initIfNotExistElseUpdate (alwaysUpdate : Bool) (call : ValueCallback σ Value Unit)
    (init : Value)
  | update (call : ValueCallback σ Value Unit)

inductive TraverseOp (σ Key Value : Type) where
  | traverse (call : ValueCallback σ Value Unit)
  | traverseWithKeyValue (call : Key → ValueCallback σ Value Unit)
  | traverseCopy (call : ValueCallback σ Value Unit)
  | traverseWithEarlyReturn (call : ValueCallback σ Value Bool)

inductive MapEvent (σ Key Value : Type) where
  | entry (key : Key) (op : KeyOp σ Value)
  | size
  | traversal (op : TraverseOp σ Key Value)
  | clear

inductive EntryAnswer (Value : Type) where
  | done
  | flag (b : Bool)
  | number (n : Nat)
  | value (v : Value)

inductive MapAnswer (Value : Type) where
  | entry (answer : EntryAnswer Value)
  | size (n : Nat)
  | traversed (finished : Bool)
  | cleared

namespace ThreadSafeMap

variable (m : ThreadSafeMap Key Value mapCount)

def serve (key : Key) (s : σ) : KeyOp σ Value →
    (EntryAnswer Value × σ) × ThreadSafeMap Key Value mapCount
  | .count => ((.number (m.count key).1, s), (m.count key).2)
  | .set value => ((.done, s), (m.set key value).2)
  | .insertInitIfNotExist call =>
    let r := m.insertInitIfNotExist key call s
    ((.flag r.1.1, r.1.2), r.2)
  | .get => ((.value (m.get key).1, s), (m.get key).2)
  | .callAndGet call =>
    let r := m.callAndGet key call s
    ((.flag r.1.1, r.1.2), r.2)
  | .getOrPut value => ((.value (m.getOrPut key value).1, s), (m.getOrPut key value).2)
  | .getOrPutCall call =>
    let r := m.getOrPutCall key call s
    ((.value r.1.1, r.1.2), r.2)
  | .subscript use =>
    let r := m.subscript key use s
    ((.done, r.1.2), r.2)
  | .exist => ((.flag (m.exist key).1, s), (m.exist key).2)
  | .erase => ((.number (m.erase key).1, s), (m.erase key).2)
  | .callAndErase call =>
    let r := m.callAndErase key call s
    ((.flag r.1.1, r.1.2), r.2)
  | .initIfNotExistElseUpdate alwaysUpdate call init =>
    let r := m.initIfNotExistElseUpdate key alwaysUpdate call init s
    ((.flag r.1.1, r.1.2), r.2)
  | .update call =>
    let r := m.update key call s
    ((.flag r.1.1, r.1.2), r.2)

def serveTraversal (s : σ) : TraverseOp σ Key Value →
    Traversal σ (ThreadSafeMap Key Value mapCount)
  | .traverse call => m.traverse call s
  | .traverseWithKeyValue call => m.traverseWithKeyValue call s
  | .traverseCopy call => m.traverseCopy call s
  | .traverseWithEarlyReturn call => m.traverseWithEarlyReturn call s

def step (s : σ × ThreadSafeMap Key Value mapCount) : MapEvent σ Key Value →
    (σ × ThreadSafeMap Key Value mapCount) × MapAnswer Value
  | .entry key op =>
    let r := s.2.serve key s.1 op
    ((r.1.2, r.2), .entry r.1.1)
  | .size => (s, .size s.2.size.toNat)
  | .traversal op =>
    let r := s.2.serveTraversal s.1 op
    ((r.captured, r.map), .traversed r.finished)
  | .clear => ((s.1, s.2.clear), .cleared)

end ThreadSafeMap

/-! The plain map that the sharded one is meant to be. -/

/-- What an operation answers, and what it makes of the entry under its key. -/
def KeyOp.onEntry (s : σ) (entry : Option Value) : KeyOp σ Value →
    (EntryAnswer Value × σ) × Option Value
  | .count => ((.number (if entry.isSome then 1 else 0), s), entry)
  | .set value => ((.done, s), some value)
  | .insertInitIfNotExist call =>
    match entry with
    | none =>
      let r := call s default
      ((.flag (r.1 = 0), r.2.1), if r.1 = 0 then some r.2.2 else none)
    | some value => ((.flag false, s), some value)
  | .get => ((.value (entry.getD default), s), entry)
  | .callAndGet call | .update call =>
    match entry with
    | none => ((.flag false, s), none)
    | some value => ((.flag true, (call s value).2.1), some (call s value).2.2)
  | .getOrPut value => ((.value (entry.getD value), s), some (entry.getD value))
  | .getOrPutCall call =>
    match entry with
    | none => ((.value (call s default).1, (call s default).2.1), some (call s default).2.2)
    | some value => ((.value value, s), some value)
  | .subscript use =>
    let r := use s (entry.getD default)
    ((.done, r.2.1), some r.2.2)
  | .exist => ((.flag entry.isSome, s), entry)
  | .erase => ((.number (if entry.isSome then 1 else 0), s), none)
  | .callAndErase call =>
    match entry with
    | none => ((.flag false, s), none)
    | some value => ((.flag true, (call s value).2.1), none)
  | .initIfNotExistElseUpdate alwaysUpdate call init =>
    match entry with
    | none =>
      if alwaysUpdate then ((.flag false, (call s init).2.1), some (call s init).2.2)
      else ((.flag false, s), some init)
    | some value => ((.flag true, (call s value).2.1), some (call s value).2.2)

/-- The callback of a traversal, which is to go on where it answers `true`. -/
def TraverseOp.visitor : TraverseOp σ Key Value → Key → ValueCallback σ Value Bool
  | .traverse call | .traverseCopy call => fun _ s value => (true, (call s value).2)
  | .traverseWithKeyValue call => fun key s value => (true, (call key s value).2)
  | .traverseWithEarlyReturn call => fun _ => call

def TraverseOp.inPlace : TraverseOp σ Key Value → Bool
  | .traverseCopy _ => false
  | _ => true

/-- What a callback has captured, and what the contents are, once it was called for each of
these entries in turn. -/
def callEach (call : Key → ValueCallback σ Value ρ) (s : σ) (contents : Key → Option Value)
    (es : List (Key × Value)) : σ × (Key → Option Value) :=
  es.foldl (fun t e =>
    let r := call e.1 t.1 e.2
    (r.2.1, Function.update t.2 e.1 (some r.2.2))) (s, contents)

/-- The callback went on after each of the entries, or it ended the traversal at the last one. -/
structure EndsAt (call : Key → ValueCallback σ Value Bool) (s : σ) (contents : Key → Option Value)
    (visited rest : List (Key × Value)) (finished : Bool) : Prop where
  answers : ∀ before e behind, visited = before ++ e :: behind →
    ((call e.1 (callEach call s contents before).1 e.2).1 = false ↔
      behind = [] ∧ finished = false)
  ended : finished = false → visited ≠ []
  all : finished = true → rest = []

/-- The steps of one plain map. A traversal takes the entries in any order. -/
inductive PlainStep : σ × Std.HashMap Key Value → MapEvent σ Key Value →
    MapAnswer Value → σ × Std.HashMap Key Value → Prop
  | entry {s s' : σ} {map : Std.HashMap Key Value} {key : Key} {op : KeyOp σ Value}
    {answer : EntryAnswer Value} {left : Option Value}
    (served : op.onEntry s map[key]? = ((answer, s'), left)) :
    PlainStep (s, map) (.entry key op) (.entry answer) (s', map.alter key fun _ => left)
  | size (s : σ) (map : Std.HashMap Key Value) :
    PlainStep (s, map) .size (.size (map.size % 2 ^ 32)) (s, map)
  | traversal {s : σ} {map left : Std.HashMap Key Value} {op : TraverseOp σ Key Value}
    {visited rest : List (Key × Value)} {finished : Bool}
    (once : (visited ++ rest).Perm map.toList)
    (ends : EndsAt op.visitor s (fun key => map[key]?) visited rest finished)
    (changed : ∀ key, left[key]? =
      if op.inPlace then (callEach op.visitor s (fun key => map[key]?) visited).2 key
      else map[key]?) :
    PlainStep (s, map) (.traversal op) (.traversed finished)
      ((callEach op.visitor s (fun key => map[key]?) visited).1, left)
  | clear (s : σ) (map : Std.HashMap Key Value) : PlainStep (s, map) .clear .cleared (s, ∅)

section Entries

open Shards

variable {map : Std.HashMap Key Value} {key : Key} {s : σ} {op : KeyOp σ Value}
  {m : ThreadSafeMap Key Value mapCount}

theorem mem_of_lookup {value : Value} (found : map[key]? = some value) : key ∈ map := by
  simp [Std.HashMap.mem_iff_isSome_getElem?, found]

theorem not_mem_of_lookup (absent : map[key]? = none) : key ∉ map := by
  simp [Std.HashMap.mem_iff_isSome_getElem?, absent]

theorem getD_of_lookup {entry : Option Value} (found : map[key]? = entry) :
    map.getD key default = entry.getD default := by
  rw [Std.HashMap.getD_eq_getD_getElem?, found]

/-- A subscript leaves an entry that is there alone. -/
theorem becomes_subscript {value : Value} (found : map[key]? = some value) :
    Becomes map key (some value) (map.insertIfNew key default) := by
  have put := becomes_insertIfNew map key default
  rw [found] at put
  exact put

theorem callAt_eq {entry : Option Value} (found : map[key]? = entry)
    (call : ValueCallback σ Value ρ) (s : σ) : callAt call s key map =
      (((call s (entry.getD default)).1, (call s (entry.getD default)).2.1),
        (map.insertIfNew key default).insert key (call s (entry.getD default)).2.2) := by
  rw [callAt, getD_of_lookup found]

theorem becomes_called (map : Std.HashMap Key Value) (key : Key) (value : Value) :
    Becomes map key (some value) ((map.insertIfNew key default).insert key value) :=
  (becomes_insertIfNew map key default).insert value

namespace ThreadSafeMap

/-- What the operation does under its lock is what it does to the entry of its key. -/
def Acts (m : ThreadSafeMap Key Value mapCount) (key : Key) (s : σ) (op : KeyOp σ Value) : Prop :=
  let map := m.map (mapIdx key)
  ∃ left, Becomes map key (op.onEntry s map[key]?).2 left ∧
    m.serve key s op = ((op.onEntry s map[key]?).1, m.setMap (mapIdx key) left)

theorem acts_of_lookup {entry left : Option Value} {map : Std.HashMap Key Value}
    (found : (m.map (mapIdx key))[key]? = entry)
    (becomes : Becomes (m.map (mapIdx key)) key left map) (leaves : (op.onEntry s entry).2 = left)
    (served : m.serve key s op = ((op.onEntry s entry).1, m.setMap (mapIdx key) map)) :
    Acts m key s op := by
  subst entry left
  exact ⟨map, becomes, served⟩

variable (m : ThreadSafeMap Key Value mapCount) (key : Key) (s : σ)

theorem acts_count : Acts m key s .count := by
  cases found : (m.map (mapIdx key))[key]? with
  | none =>
    refine acts_of_lookup found (becomes_of_lookup found) rfl ?_
    simp [serve, count, locked, KeyOp.onEntry, not_mem_of_lookup found]
  | some value =>
    refine acts_of_lookup found (becomes_of_lookup found) rfl ?_
    simp [serve, count, locked, KeyOp.onEntry, mem_of_lookup found]

theorem acts_set (value : Value) : Acts m key s (.set value) :=
  ⟨_, becomes_insert _ key value, rfl⟩

theorem acts_insertInitIfNotExist (call : ValueCallback σ Value Int) :
    Acts m key s (.insertInitIfNotExist call) := by
  cases found : (m.map (mapIdx key))[key]? with
  | none =>
    have called := callAt_eq found call s
    have put := becomes_called (m.map (mapIdx key)) key (call s default).2.2
    have absent := not_mem_of_lookup found
    by_cases ok : (call s default).1 = 0
    · refine acts_of_lookup found put (by simp [KeyOp.onEntry, ok]) ?_
      simp [serve, insertInitIfNotExist, locked, KeyOp.onEntry, absent, called, ok]
    · refine acts_of_lookup found put.erase (by simp [KeyOp.onEntry, ok]) ?_
      simp [serve, insertInitIfNotExist, locked, KeyOp.onEntry, absent, called, ok]
  | some value =>
    refine acts_of_lookup found (becomes_of_lookup found) rfl ?_
    simp [serve, insertInitIfNotExist, locked, KeyOp.onEntry, mem_of_lookup found]

theorem acts_get : Acts m key s .get := by
  cases found : (m.map (mapIdx key))[key]? with
  | none =>
    refine acts_of_lookup found (becomes_of_lookup found) rfl ?_
    simp [serve, get, locked, KeyOp.onEntry, not_mem_of_lookup found]
  | some value =>
    refine acts_of_lookup found (becomes_subscript found) rfl ?_
    simp [serve, get, locked, KeyOp.onEntry, mem_of_lookup found, getD_of_lookup found]

theorem acts_callAndGet (call : ValueCallback σ Value Unit) : Acts m key s (.callAndGet call) := by
  cases found : (m.map (mapIdx key))[key]? with
  | none =>
    refine acts_of_lookup found (becomes_of_lookup found) rfl ?_
    simp [serve, callAndGet, locked, KeyOp.onEntry, not_mem_of_lookup found]
  | some value =>
    have called := callAt_eq found call s
    refine acts_of_lookup found (becomes_called _ key (call s value).2.2) rfl ?_
    simp [serve, callAndGet, locked, KeyOp.onEntry, mem_of_lookup found, called]

theorem acts_getOrPut (value : Value) : Acts m key s (.getOrPut value) := by
  cases found : (m.map (mapIdx key))[key]? with
  | none =>
    refine acts_of_lookup found (becomes_insert _ key value) rfl ?_
    simp [serve, getOrPut, locked, KeyOp.onEntry, not_mem_of_lookup found]
  | some old =>
    refine acts_of_lookup found (becomes_subscript found) rfl ?_
    simp [serve, getOrPut, locked, KeyOp.onEntry, mem_of_lookup found, getD_of_lookup found]

theorem acts_getOrPutCall (call : ValueCallback σ Value Value) :
    Acts m key s (.getOrPutCall call) := by
  cases found : (m.map (mapIdx key))[key]? with
  | none =>
    have called := callAt_eq found call s
    refine acts_of_lookup found (becomes_called _ key (call s default).2.2) rfl ?_
    simp [serve, getOrPutCall, locked, KeyOp.onEntry, not_mem_of_lookup found, called]
  | some old =>
    refine acts_of_lookup found (becomes_subscript found) rfl ?_
    simp [serve, getOrPutCall, locked, KeyOp.onEntry, mem_of_lookup found, getD_of_lookup found]

theorem acts_subscript (use : ValueCallback σ Value Unit) : Acts m key s (.subscript use) := by
  obtain ⟨entry, found⟩ : ∃ entry, (m.map (mapIdx key))[key]? = entry := ⟨_, rfl⟩
  have called := callAt_eq found use s
  refine acts_of_lookup found (becomes_called _ key (use s (entry.getD default)).2.2) rfl ?_
  simp [serve, subscript, locked, KeyOp.onEntry, called]

theorem acts_exist : Acts m key s .exist := by
  cases found : (m.map (mapIdx key))[key]? with
  | none =>
    refine acts_of_lookup found (becomes_of_lookup found) rfl ?_
    simp [serve, exist, locked, KeyOp.onEntry, not_mem_of_lookup found]
  | some value =>
    refine acts_of_lookup found (becomes_of_lookup found) rfl ?_
    simp [serve, exist, locked, KeyOp.onEntry, mem_of_lookup found]

theorem acts_erase : Acts m key s .erase := by
  have erased := becomes_erase (m.map (mapIdx key)) key
  cases found : (m.map (mapIdx key))[key]? with
  | none =>
    refine acts_of_lookup found erased rfl ?_
    simp [serve, erase, locked, KeyOp.onEntry, not_mem_of_lookup found]
  | some value =>
    refine acts_of_lookup found erased rfl ?_
    simp [serve, erase, locked, KeyOp.onEntry, mem_of_lookup found]

theorem acts_callAndErase (call : ValueCallback σ Value Unit) :
    Acts m key s (.callAndErase call) := by
  cases found : (m.map (mapIdx key))[key]? with
  | none =>
    refine acts_of_lookup found (becomes_of_lookup found) rfl ?_
    simp [serve, callAndErase, locked, KeyOp.onEntry, not_mem_of_lookup found]
  | some value =>
    have called := callAt_eq found call s
    refine acts_of_lookup found (becomes_called _ key (call s value).2.2).erase rfl ?_
    simp [serve, callAndErase, locked, KeyOp.onEntry, mem_of_lookup found, called]

theorem acts_initIfNotExistElseUpdate (alwaysUpdate : Bool) (call : ValueCallback σ Value Unit)
    (init : Value) : Acts m key s (.initIfNotExistElseUpdate alwaysUpdate call init) := by
  cases found : (m.map (mapIdx key))[key]? with
  | none =>
    have put := becomes_insertIfNew (m.map (mapIdx key)) key init
    rw [found] at put
    have called := callAt_eq put.here call s
    cases alwaysUpdate with
    | true =>
      refine acts_of_lookup found (put.trans (becomes_called _ key (call s init).2.2)) rfl ?_
      simp [serve, initIfNotExistElseUpdate, locked, KeyOp.onEntry, found, called]
    | false =>
      refine acts_of_lookup found put rfl ?_
      simp [serve, initIfNotExistElseUpdate, locked, KeyOp.onEntry, found]
  | some value =>
    refine acts_of_lookup found (becomes_insert _ key (call s value).2.2) rfl ?_
    simp [serve, initIfNotExistElseUpdate, locked, KeyOp.onEntry, found]

theorem acts_update (call : ValueCallback σ Value Unit) : Acts m key s (.update call) := by
  cases found : (m.map (mapIdx key))[key]? with
  | none =>
    refine acts_of_lookup found (becomes_of_lookup found) rfl ?_
    simp [serve, update, locked, KeyOp.onEntry, found]
  | some value =>
    refine acts_of_lookup found (becomes_insert _ key (call s value).2.2) rfl ?_
    simp [serve, update, locked, KeyOp.onEntry, found]

theorem acts (op : KeyOp σ Value) : Acts m key s op := by
  cases op with
  | count => exact acts_count m key s
  | set value => exact acts_set m key s value
  | insertInitIfNotExist call => exact acts_insertInitIfNotExist m key s call
  | get => exact acts_get m key s
  | callAndGet call => exact acts_callAndGet m key s call
  | getOrPut value => exact acts_getOrPut m key s value
  | getOrPutCall call => exact acts_getOrPutCall m key s call
  | subscript use => exact acts_subscript m key s use
  | exist => exact acts_exist m key s
  | erase => exact acts_erase m key s
  | callAndErase call => exact acts_callAndErase m key s call
  | initIfNotExistElseUpdate alwaysUpdate call init =>
    exact acts_initIfNotExistElseUpdate m key s alwaysUpdate call init
  | update call => exact acts_update m key s call

end ThreadSafeMap

end Entries

section Traversals

open Shards ThreadSafeMap

/-- Two traversals that have left their callbacks alike. -/
structure Traversal.Alike {Map Map' : Type} (t : Traversal σ Map) (t' : Traversal σ Map') :
    Prop where
  finished : t.finished = t'.finished
  captured : t.captured = t'.captured

variable {call : Key → ValueCallback σ Value Bool} {m : ThreadSafeMap Key Value mapCount}
  {map whole : Std.HashMap Key Value}

@[simp] theorem visit_nil (s : σ) (map : Std.HashMap Key Value) :
    visit call [] s map = ⟨true, s, map⟩ := rfl

theorem visit_cons {e : Key × Value} {s : σ} (goesOn : (call e.1 s e.2).1 = true)
    (es : List (Key × Value)) (map : Std.HashMap Key Value) :
    visit call (e :: es) s map =
      visit call es (call e.1 s e.2).2.1 (map.insert e.1 (call e.1 s e.2).2.2) :=
  if_pos goesOn

theorem visit_cons_ended {e : Key × Value} {s : σ} (ends : ¬ (call e.1 s e.2).1 = true)
    (es : List (Key × Value)) (map : Std.HashMap Key Value) :
    visit call (e :: es) s map =
      ⟨false, (call e.1 s e.2).2.1, map.insert e.1 (call e.1 s e.2).2.2⟩ := if_neg ends

/-- A callback does not see the map, only the entries of the loop. -/
theorem visit_alike (call : Key → ValueCallback σ Value Bool) (es : List (Key × Value)) (s : σ)
    (map map' : Std.HashMap Key Value) : (visit call es s map).Alike (visit call es s map') := by
  induction es generalizing s map map' with
  | nil => exact ⟨rfl, rfl⟩
  | cons e es ih =>
    by_cases goesOn : (call e.1 s e.2).1 = true
    · rw [visit_cons goesOn, visit_cons goesOn]
      exact ih _ _ _
    · rw [visit_cons_ended goesOn, visit_cons_ended goesOn]
      exact ⟨rfl, rfl⟩

theorem visit_append (es es' : List (Key × Value)) {s : σ}
    (finished : (visit call es s map).finished = true) :
    visit call (es ++ es') s map =
      visit call es' (visit call es s map).captured (visit call es s map).map := by
  induction es generalizing s map with
  | nil => rfl
  | cons e es ih =>
    by_cases goesOn : (call e.1 s e.2).1 = true
    · rw [visit_cons goesOn] at finished
      rw [List.cons_append, visit_cons goesOn, visit_cons goesOn, ih finished]
    · rw [visit_cons_ended goesOn] at finished
      simp at finished

theorem visit_append_ended (es es' : List (Key × Value)) {s : σ}
    (ended : ¬ (visit call es s map).finished = true) :
    visit call (es ++ es') s map = visit call es s map := by
  induction es generalizing s map with
  | nil => simp at ended
  | cons e es ih =>
    rw [List.cons_append]
    by_cases goesOn : (call e.1 s e.2).1 = true
    · rw [visit_cons goesOn] at ended
      rw [visit_cons goesOn, visit_cons goesOn, ih ended]
    · rw [visit_cons_ended goesOn, visit_cons_ended goesOn]

theorem visit_throughout (always : ∀ key s value, (call key s value).1 = true)
    (es : List (Key × Value)) (s : σ) (map : Std.HashMap Key Value) :
    (visit call es s map).finished = true := by
  induction es generalizing s map with
  | nil => rfl
  | cons e es ih =>
    rw [visit_cons (always e.1 s e.2)]
    exact ih _ _

section Called

variable {s : σ} {contents : Key → Option Value} {visited rest : List (Key × Value)}
  {finished : Bool}

theorem callEach_cons (call : Key → ValueCallback σ Value ρ) (e : Key × Value)
    (es : List (Key × Value)) :
    callEach call s contents (e :: es) = callEach call (call e.1 s e.2).2.1
      (Function.update contents e.1 (some (call e.1 s e.2).2.2)) es := rfl

theorem endsAt_nil : EndsAt call s contents [] [] true :=
  ⟨fun before e behind split => by simp at split, by simp, fun _ => rfl⟩

theorem endsAt_singleton {e : Key × Value} (ends : ¬ (call e.1 s e.2).1 = true) :
    EndsAt call s contents [e] rest false := by
  refine ⟨fun before e' behind split => ?_, by simp, by simp⟩
  cases before with
  | nil =>
    obtain ⟨rfl, rfl⟩ := List.cons.inj split
    exact iff_of_true (Bool.eq_false_iff.mpr ends) ⟨rfl, rfl⟩
  | cons e'' before => simp at split

theorem EndsAt.cons {e : Key × Value} (goesOn : (call e.1 s e.2).1 = true)
    (h : EndsAt call (call e.1 s e.2).2.1
      (Function.update contents e.1 (some (call e.1 s e.2).2.2)) visited rest finished) :
    EndsAt call s contents (e :: visited) rest finished := by
  refine ⟨fun before e' behind split => ?_, by simp, h.all⟩
  cases before with
  | nil =>
    obtain ⟨rfl, rfl⟩ := List.cons.inj split
    have answer : (call e.1 (callEach call s contents []).1 e.2).1 = true := goesOn
    rw [answer]
    exact iff_of_false (by simp) fun last => h.ended last.2 last.1
  | cons e'' before =>
    obtain ⟨rfl, rfl⟩ := List.cons.inj split
    rw [callEach_cons]
    exact h.answers before e' behind rfl

variable (call s) in
/-- The loop calls the callback for the entries in turn, until it answers `false`. -/
theorem visit_calls (es : List (Key × Value)) (same : ∀ key, map[key]? = contents key) :
    ∃ visited rest, es = visited ++ rest ∧
      EndsAt call s contents visited rest (visit call es s map).finished ∧
      (visit call es s map).captured = (callEach call s contents visited).1 ∧
      ∀ key, (visit call es s map).map[key]? = (callEach call s contents visited).2 key := by
  induction es generalizing s map contents with
  | nil => exact ⟨[], [], rfl, endsAt_nil, rfl, same⟩
  | cons e es ih =>
    have changed : ∀ key, (map.insert e.1 (call e.1 s e.2).2.2)[key]? =
        Function.update contents e.1 (some (call e.1 s e.2).2.2) key := by
      intro key
      rw [Std.HashMap.getElem?_insert, Function.update_apply, same]
      by_cases here : key = e.1
      · rw [if_pos here, if_pos (by simp [here])]
      · rw [if_neg here, if_neg (by simpa using Ne.symm here)]
    by_cases goesOn : (call e.1 s e.2).1 = true
    · obtain ⟨visited, rest, rfl, ends, captured, left⟩ := ih _ changed
      rw [visit_cons goesOn]
      exact ⟨e :: visited, rest, rfl, ends.cons goesOn, captured, left⟩
    · rw [visit_cons_ended goesOn]
      exact ⟨[e], es, rfl, endsAt_singleton goesOn, rfl, changed⟩

/-- A callback that ends nothing is called for every entry. -/
theorem visit_calls_all (always : ∀ key s value, (call key s value).1 = true)
    (es : List (Key × Value)) (same : ∀ key, map[key]? = contents key) :
    (visit call es s map).captured = (callEach call s contents es).1 ∧
      ∀ key, (visit call es s map).map[key]? = (callEach call s contents es).2 key := by
  obtain ⟨visited, rest, rfl, ends, captured, left⟩ := visit_calls call s es same
  rw [ends.all (visit_throughout always _ s map), List.append_nil] at captured left ⊢
  exact ⟨captured, left⟩

end Called

theorem ThreadSafeMap.setMap_setMap (m : ThreadSafeMap Key Value mapCount) (i : Fin mapCount)
    (map map' : Std.HashMap Key Value) : (m.setMap i map).setMap i map' = m.setMap i map' := by
  simp only [setMap, Function.update_idem]

@[simp] theorem ThreadSafeMap.map_setMap_self (m : ThreadSafeMap Key Value mapCount)
    (i : Fin mapCount) (map : Std.HashMap Key Value) : (m.setMap i map).map i = map :=
  Function.update_self ..

theorem ThreadSafeMap.map_setMap_ne (m : ThreadSafeMap Key Value mapCount) {i j : Fin mapCount}
    (map : Std.HashMap Key Value) (ne : j ≠ i) : (m.setMap i map).map j = m.map j :=
  Function.update_of_ne ne ..

/-- What a loop over entries of one map leaves there, it leaves in the whole map. -/
theorem visit_holds (call : Key → ValueCallback σ Value Bool) (h : Holds mapIdx m.map whole)
    {i : Fin mapCount} {es : List (Key × Value)} (own : ∀ e ∈ es, mapIdx e.1 = i) (s : σ) :
    Holds mapIdx (m.setMap i (visit call es s (m.map i)).map).map (visit call es s whole).map := by
  induction es generalizing m whole s with
  | nil =>
    rw [visit_nil, visit_nil, setMap, Function.update_eq_self]
    exact h
  | cons e es ih =>
    have place := own e (by simp)
    have stepped : ∀ value, Holds mapIdx (m.setMap i ((m.map i).insert e.1 value)).map
        (whole.insert e.1 value) := by
      intro value
      subst i
      exact h.update (becomes_insert _ e.1 value) (becomes_insert _ e.1 value)
    by_cases goesOn : (call e.1 s e.2).1 = true
    · have later := ih (stepped (call e.1 s e.2).2.2)
        (fun e' mem => own e' (List.mem_cons_of_mem _ mem)) (call e.1 s e.2).2.1
      rw [map_setMap_self, setMap_setMap] at later
      rw [visit_cons goesOn, visit_cons goesOn]
      exact later
    · rw [visit_cons_ended goesOn, visit_cons_ended goesOn]
      exact stepped _

theorem own_entries (h : Holds mapIdx m.map whole) (i : Fin mapCount) :
    ∀ e ∈ (m.map i).toList, mapIdx e.1 = i := fun _ mem =>
  (h.lookup_of_shard (Std.HashMap.mem_toList_iff_getElem?_eq_some.mp mem)).1

section VisitMaps

variable {is : List (Fin mapCount)} {i : Fin mapCount} {s : σ}

theorem visitMaps_cons (inPlace : Bool)
    (finished : (visit call (m.map i).toList s (m.map i)).finished = true) :
    visitMaps inPlace call (i :: is) s m =
      let here := visit call (m.map i).toList s (m.map i)
      visitMaps inPlace call is here.captured
        (if inPlace then m.setMap i here.map else m) := if_pos finished

theorem visitMaps_cons_ended (inPlace : Bool)
    (ended : ¬ (visit call (m.map i).toList s (m.map i)).finished = true) :
    visitMaps inPlace call (i :: is) s m =
      let here := visit call (m.map i).toList s (m.map i)
      ⟨false, here.captured, if inPlace then m.setMap i here.map else m⟩ := if_neg ended

/-- The callback sees the loops over the maps as one loop over the entries of all. -/
theorem visitMaps_alike (inPlace : Bool) (nodup : is.Nodup)
    (m : ThreadSafeMap Key Value mapCount) (s : σ) (whole : Std.HashMap Key Value) :
    (visitMaps inPlace call is s m).Alike (visit call (entries is m.map) s whole) := by
  induction is generalizing s m whole with
  | nil => exact ⟨rfl, rfl⟩
  | cons i is ih =>
    obtain ⟨absent, nodup⟩ := List.nodup_cons.mp nodup
    have alike := visit_alike call (m.map i).toList s (m.map i) whole
    rw [entries_cons]
    by_cases finished : (visit call (m.map i).toList s (m.map i)).finished = true
    · rw [visitMaps_cons inPlace finished, visit_append _ _ (alike.finished ▸ finished),
        ← alike.captured]
      have rest : ∀ map, entries is (if inPlace then m.setMap i map else m).map =
          entries is m.map := by
        intro map
        split
        next => exact entries_update absent m.map map
        next => rfl
      have later := ih nodup (if inPlace then
        m.setMap i (visit call (m.map i).toList s (m.map i)).map else m)
        (visit call (m.map i).toList s (m.map i)).captured
        (visit call (m.map i).toList s whole).map
      rw [rest] at later
      exact later
    · have ended : ¬ (visit call (m.map i).toList s whole).finished = true := by
        rw [← alike.finished]
        exact finished
      rw [visitMaps_cons_ended inPlace finished, visit_append_ended _ _ ended]
      exact ⟨(Bool.eq_false_iff.mpr ended).symm, alike.captured⟩

variable (call) in
/-- So do the changes that it makes in place. -/
theorem visitMaps_holds (nodup : is.Nodup) (h : Holds mapIdx m.map whole) (s : σ) :
    Holds mapIdx (visitMaps true call is s m).map.map
      (visit call (entries is m.map) s whole).map := by
  induction is generalizing s m whole with
  | nil => exact h
  | cons i is ih =>
    obtain ⟨absent, nodup⟩ := List.nodup_cons.mp nodup
    have alike := visit_alike call (m.map i).toList s (m.map i) whole
    have here := visit_holds call h (own_entries h i) s
    rw [entries_cons]
    by_cases finished : (visit call (m.map i).toList s (m.map i)).finished = true
    · rw [visitMaps_cons true finished, visit_append _ _ (alike.finished ▸ finished),
        ← alike.captured]
      have later := ih nodup here (visit call (m.map i).toList s (m.map i)).captured
      rw [setMap, entries_update absent] at later
      exact later
    · have ended : ¬ (visit call (m.map i).toList s whole).finished = true := by
        rw [← alike.finished]
        exact finished
      rw [visitMaps_cons_ended true finished, visit_append_ended _ _ ended]
      exact here

theorem visitMaps_copy (is : List (Fin mapCount)) (s : σ) :
    (visitMaps false call is s m).map = m := by
  induction is generalizing s with
  | nil => rfl
  | cons i is ih =>
    by_cases finished : (visit call (m.map i).toList s (m.map i)).finished = true
    · rw [visitMaps_cons false finished]
      exact ih _
    · rw [visitMaps_cons_ended false finished]
      rfl

end VisitMaps

/-- The traversals differ in their callback and in whether they work on copies. -/
theorem serveTraversal_eq (m : ThreadSafeMap Key Value mapCount) (s : σ)
    (op : TraverseOp σ Key Value) :
    m.serveTraversal s op = visitMaps op.inPlace op.visitor (List.finRange mapCount) s m := by
  cases op <;> rfl

end Traversals

section Wholes

open Shards ThreadSafeMap

variable {m : ThreadSafeMap Key Value mapCount} {whole : Std.HashMap Key Value}

theorem foldl_add_sizes {ι : Type} (sizeOf : ι → Nat) (is : List ι) (start : UInt32) :
    is.foldl (fun size i => size + UInt32.ofNat (sizeOf i)) start =
      start + UInt32.ofNat (is.map sizeOf).sum := by
  induction is generalizing start with
  | nil => simp
  | cons i is ih =>
    rw [List.foldl_cons, ih, List.map_cons, List.sum_cons, UInt32.ofNat_add, UInt32.add_assoc]

theorem size_toNat (h : Holds mapIdx m.map whole) : m.size.toNat = whole.size % 2 ^ 32 := by
  have sum := h.sum_sizes (List.nodup_finRange mapCount) List.mem_finRange
  rw [size, foldl_add_sizes, sum]
  simp

theorem map_clearAll (is : List (Fin mapCount)) (m : ThreadSafeMap Key Value mapCount)
    (i : Fin mapCount) :
    (is.foldl (fun m i => m.setMap i ∅) m).map i = if i ∈ is then ∅ else m.map i := by
  induction is generalizing m with
  | nil => simp
  | cons j is ih =>
    rw [List.foldl_cons, ih]
    by_cases same : i = j
    · subst j
      simp
    · rw [map_setMap_ne m ∅ same]
      simp [same]

theorem map_clear (m : ThreadSafeMap Key Value mapCount) : m.clear.map = fun _ => ∅ := by
  funext i
  rw [clear, map_clearAll, if_pos (List.mem_finRange i)]

/-- Every step is one that the plain map can take. -/
theorem step_refines (h : Holds mapIdx m.map whole) (s : σ) (e : MapEvent σ Key Value) :
    ∃ whole', PlainStep (s, whole) e (step (s, m) e).2 ((step (s, m) e).1.1, whole') ∧
      Holds mapIdx (step (s, m) e).1.2.map whole' := by
  cases e with
  | entry key op =>
    obtain ⟨left, becomes, served⟩ := acts m key s op
    rw [h.contents key] at becomes served
    simp only [step, served]
    exact ⟨_, .entry rfl, h.update becomes (becomes_alter whole key fun _ => _)⟩
  | size =>
    refine ⟨whole, ?_, h⟩
    rw [step, size_toNat h]
    exact .size s whole
  | traversal op =>
    have nodup := List.nodup_finRange (mapCount : ℕ)
    have once := h.entries_perm nodup List.mem_finRange
    have alike : (m.serveTraversal s op).Alike
        (visit op.visitor (entries (List.finRange mapCount) m.map) s whole) := by
      rw [serveTraversal_eq]
      exact visitMaps_alike op.inPlace nodup m s whole
    obtain ⟨visited, rest, split, ends, captured, left⟩ := visit_calls op.visitor s
      (entries (List.finRange mapCount) m.map) fun key => rfl
    rw [split] at once
    dsimp only [step]
    rw [alike.finished, alike.captured, captured, serveTraversal_eq]
    cases place : op.inPlace with
    | true =>
      refine ⟨_, .traversal once ends fun key => ?_, visitMaps_holds op.visitor nodup h s⟩
      rw [place]
      exact left key
    | false =>
      refine ⟨whole, .traversal once ends fun key => ?_, ?_⟩
      · rw [place]
        rfl
      · rw [visitMaps_copy]
        exact h
  | clear =>
    refine ⟨∅, .clear s whole, ?_⟩
    rw [step, map_clear]
    exact holds_empty mapIdx

theorem TraverseOp.visitor_goesOn {op : TraverseOp σ Key Value}
    (full : ∀ call, op ≠ .traverseWithEarlyReturn call) (key : Key) (s : σ) (value : Value) :
    (op.visitor key s value).1 = true := by
  cases op with
  | traverseWithEarlyReturn call => exact absurd rfl (full call)
  | _ => rfl

namespace ThreadSafeMap

def lookup (m : ThreadSafeMap Key Value mapCount) (key : Key) : Option Value :=
  (m.map (mapIdx key))[key]?

/-- The order has every present key once, with its value, and no other. -/
structure VisitsOnce (m : ThreadSafeMap Key Value mapCount) (order : List (Key × Value)) :
    Prop where
  once : (order.map Prod.fst).Nodup
  present : ∀ key value, (key, value) ∈ order ↔ m.lookup key = some value

theorem visitsOnce_entries (h : Holds mapIdx m.map whole) :
    VisitsOnce m (entries (List.finRange mapCount) m.map) := by
  have perm := h.entries_perm (List.nodup_finRange mapCount) List.mem_finRange
  constructor
  · rw [(perm.map Prod.fst).nodup_iff, Std.HashMap.map_fst_toList_eq_keys]
    exact Std.HashMap.nodup_keys
  · intro key value
    rw [perm.mem_iff, Std.HashMap.mem_toList_iff_getElem?_eq_some, lookup, h.contents key]

/-- The callback is called for every present key once, and nothing else changes. -/
theorem traversal_calls (h : Holds mapIdx m.map whole) (s : σ) (op : TraverseOp σ Key Value)
    (full : ∀ call, op ≠ .traverseWithEarlyReturn call) :
    ∃ order, m.VisitsOnce order ∧
      (m.serveTraversal s op).captured = (callEach op.visitor s m.lookup order).1 ∧
      (op.inPlace = true →
        (m.serveTraversal s op).map.lookup = (callEach op.visitor s m.lookup order).2) := by
  have nodup := List.nodup_finRange (mapCount : ℕ)
  have same : ∀ key, whole[key]? = m.lookup key := fun key => (h.contents key).symm
  obtain ⟨captured, left⟩ := visit_calls_all (s := s) (TraverseOp.visitor_goesOn full)
    (entries (List.finRange mapCount) m.map) same
  refine ⟨_, visitsOnce_entries h, ?_, fun place => ?_⟩
  · rw [serveTraversal_eq, (visitMaps_alike op.inPlace nodup m s whole).captured, captured]
  · have holds := visitMaps_holds op.visitor nodup h s
    funext key
    rw [serveTraversal_eq, place, lookup, holds.contents key, left]

/-- A failed initialiser leaves every key as it was. -/
theorem failed_init_leaves_nothing (h : Holds mapIdx m.map whole) {key : Key}
    {call : ValueCallback σ Value Int} {s : σ} (absent : m.lookup key = none)
    (fails : (call s default).1 ≠ 0) :
    (m.insertInitIfNotExist key call s).1.1 = false ∧
      ∀ k, (m.insertInitIfNotExist key call s).2.lookup k = m.lookup k := by
  obtain ⟨left, becomes, served⟩ := acts_insertInitIfNotExist m key s call
  have missing : (m.map (mapIdx key))[key]? = none := absent
  have refused : (KeyOp.insertInitIfNotExist call).onEntry s none =
      ((.flag false, (call s default).2.1), none) := by simp [KeyOp.onEntry, fails]
  rw [missing, refused] at becomes served
  have flag := congrArg (fun r => r.1.1) served
  have after := congrArg Prod.snd served
  refine ⟨EntryAnswer.flag.inj flag, fun k => ?_⟩
  have unchanged : Holds mapIdx (m.setMap (mapIdx key) left).map whole := by
    apply h.update becomes
    rw [h.contents key] at missing
    exact becomes_of_lookup missing
  dsimp only [serve] at after
  rw [after, lookup, lookup, unchanged.contents k, h.contents k]

end ThreadSafeMap

/-- Every run of the sharded map is one of the plain map, with the same answers. -/
theorem run_refines (mapCount : ℕ+) (start : σ) (events : List (MapEvent σ Key Value)) :
    let r := Run.all step (start, ({} : ThreadSafeMap Key Value mapCount)) events
    ∃ map, Run.Traced PlainStep (start, (∅ : Std.HashMap Key Value)) events r.2 (r.1.1, map) ∧
      Holds mapIdx r.1.2.map map := by
  let R (s : σ × ThreadSafeMap Key Value mapCount) (t : σ × Std.HashMap Key Value) : Prop :=
    s.1 = t.1 ∧ Holds mapIdx s.2.map t.2
  have simulates : ∀ s t e, R s t → ∃ t', PlainStep t e (step s e).2 t' ∧ R (step s e).1 t' := by
    rintro ⟨s, m⟩ ⟨_, map⟩ e ⟨rfl, h⟩
    obtain ⟨map', stepped, h'⟩ := step_refines h s e
    exact ⟨_, stepped, rfl, h'⟩
  have empty : R (start, {}) (start, ∅) := ⟨rfl, holds_empty mapIdx⟩
  obtain ⟨⟨s, map⟩, run, captured, holds⟩ := Run.traced_of_simulation simulates events empty
  dsimp only at captured
  rw [← captured] at run
  exact ⟨map, run, holds⟩

/-- Whatever is done with it, a sharded map is one plain map: the answers and the contents
are those of a plain map, a failed initialiser leaves no entry behind, and a traversal calls
its callback for each key once, in some order. -/
theorem refines_plain_map (mapCount : ℕ+) (start : σ) (events : List (MapEvent σ Key Value)) :
    let r := Run.all step (start, ({} : ThreadSafeMap Key Value mapCount)) events
    let m := r.1.2
    (∃ map, Run.Traced PlainStep (start, (∅ : Std.HashMap Key Value)) events r.2 (r.1.1, map) ∧
      Holds mapIdx m.map map) ∧
    (∀ key (call : ValueCallback σ Value Int) s, m.lookup key = none → (call s default).1 ≠ 0 →
      (m.insertInitIfNotExist key call s).1.1 = false ∧
        ∀ k, (m.insertInitIfNotExist key call s).2.lookup k = m.lookup k) ∧
    (∀ (call : ValueCallback σ Value Unit) s, ∃ order, m.VisitsOnce order ∧
      (m.traverse call s).captured = (callEach (fun _ => call) s m.lookup order).1 ∧
      (m.traverse call s).map.lookup = (callEach (fun _ => call) s m.lookup order).2) ∧
    (∀ (call : Key → ValueCallback σ Value Unit) s, ∃ order, m.VisitsOnce order ∧
      (m.traverseWithKeyValue call s).captured = (callEach call s m.lookup order).1 ∧
      (m.traverseWithKeyValue call s).map.lookup = (callEach call s m.lookup order).2) ∧
    ∀ (call : ValueCallback σ Value Unit) s, ∃ order, m.VisitsOnce order ∧
      (m.traverseCopy call s).captured = (callEach (fun _ => call) s m.lookup order).1 ∧
      (m.traverseCopy call s).map = m := by
  intro r m
  obtain ⟨map, run, holds⟩ := run_refines mapCount start events
  refine ⟨⟨map, run, holds⟩, ?_, ?_, ?_, ?_⟩
  · exact fun key call s absent fails => failed_init_leaves_nothing holds absent fails
  · intro call s
    obtain ⟨order, once, captured, left⟩ := traversal_calls holds s (.traverse call) (by simp)
    exact ⟨order, once, captured, left rfl⟩
  · intro call s
    obtain ⟨order, once, captured, left⟩ :=
      traversal_calls holds s (.traverseWithKeyValue call) (by simp)
    exact ⟨order, once, captured, left rfl⟩
  · intro call s
    obtain ⟨order, once, captured, _⟩ :=
      traversal_calls holds s (.traverseCopy call) (by simp)
    exact ⟨order, once, captured, visitMaps_copy _ s⟩

end Wholes

end Model

end EA
