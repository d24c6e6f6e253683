import EA.Lib.Lockstep
import EA.Lib.Table

namespace EA

variable {T : Type}

/-- Two values that swap the roles of foreground and background. -/
structure DoubleBuffer (T : Type) where
  data : Bool → T
  index : Bool := false

namespace DoubleBuffer

def read (b : DoubleBuffer T) : T := b.data b.index

def readBackground (b : DoubleBuffer T) : T := b.data !b.index

def swap (b : DoubleBuffer T) : DoubleBuffer T := { b with index := !b.index }

/-- The buffer after a change through the pointer that `read` gives. -/
def setRead (b : DoubleBuffer T) (value : T) : DoubleBuffer T :=
  { b with data := Function.update b.data b.index value }

/-- The buffer after a change through the pointer that `read_background` gives. -/
def setBackground (b : DoubleBuffer T) (value : T) : DoubleBuffer T :=
  { b with data := Function.update b.data (!b.index) value }

variable (b : DoubleBuffer T) (value : T)

@[simp] theorem read_swap : b.swap.read = b.readBackground := rfl

@[simp] theorem readBackground_swap : b.swap.readBackground = b.read := by
  simp [swap, read, readBackground]

@[simp] theorem read_setRead : (b.setRead value).read = value := by simp [setRead, read]

@[simp] theorem readBackground_setRead :
    (b.setRead value).readBackground = b.readBackground := by
  simp [setRead, readBackground]

@[simp] theorem read_setBackground : (b.setBackground value).read = b.read := by
  simp [setBackground, read]

@[simp] theorem readBackground_setBackground :
    (b.setBackground value).readBackground = value := by
  simp [setBackground, readBackground]

end DoubleBuffer

/-- `earliestTime` is when `_the_earlist_time_for_background` was last reset. -/
structure IncrementalUpdate (T : Type) where
  buf : DoubleBuffer (Table Int T) := ⟨fun _ => ∅, false⟩
  earliestTime : Int := 0

/-- The answer of `check_and_update_incremental`: what it returns, the infos it has called
`update_incremental` with, and the index it leaves. -/
structure CheckResult (T : Type) where
  fullUpdate : Bool
  updates : List T
  lastUpdatedIndex : Int

namespace IncrementalUpdate

def frontground (u : IncrementalUpdate T) : Table Int T := u.buf.read

def background (u : IncrementalUpdate T) : Table Int T := u.buf.readBackground

/-- `put_incremental_info` at the time `now`, where `gcTime` is the flag
`incremental_info_gc_time`. -/
def putIncrementalInfo (gcTime now : Int) (applyIndex : Int) (infos : T)
    (u : IncrementalUpdate T) : IncrementalUpdate T :=
  let buf := u.buf.setBackground (u.background.insert applyIndex infos)
  if u.background.isEmpty then { buf, earliestTime := now }
  else if now - u.earliestTime > gcTime then { u with buf := (buf.setRead ∅).swap }
  else { u with buf }

def clear (u : IncrementalUpdate T) : IncrementalUpdate T :=
  { u with buf := (u.buf.setBackground ∅).setRead ∅ }

/-- The entries from `upper_bound(index)` on. -/
def upperBound (m : Table Int T) (index : Int) : List (Int × T) :=
  m.toList.filter fun e => index < e.1

/-- The loop over the entries, which an index above `appliedIndex` ends. -/
def updateUpTo (appliedIndex : Int) : List (Int × T) → List T × Int → List T × Int
  | [], s => s
  | e :: rest, s =>
    if e.1 > appliedIndex then s else updateUpTo appliedIndex rest (s.1 ++ [e.2], e.1)

def checkAndUpdateIncremental (u : IncrementalUpdate T) (lastUpdatedIndex appliedIndex : Int) :
    CheckResult T :=
  match u.frontground.toList, u.background.toList with
  | [], [] => ⟨lastUpdatedIndex < appliedIndex, [], lastUpdatedIndex⟩
  | [], first :: _ =>
    if lastUpdatedIndex < first.1 then ⟨true, [], lastUpdatedIndex⟩
    else
      let s := updateUpTo appliedIndex (upperBound u.background lastUpdatedIndex)
        ([], lastUpdatedIndex)
      ⟨false, s.1, s.2⟩
  | first :: _, _ =>
    if lastUpdatedIndex < first.1 then ⟨true, [], lastUpdatedIndex⟩
    else
      let s := updateUpTo appliedIndex (upperBound u.frontground lastUpdatedIndex)
        ([], lastUpdatedIndex)
      let s := updateUpTo appliedIndex (upperBound u.background s.2) s
      ⟨false, s.1, s.2⟩

inductive Event (T : Type) where
  | put (now applyIndex : Int) (infos : T)
  | clear
  | check (lastUpdatedIndex appliedIndex : Int)

def step (gcTime : Int) (u : IncrementalUpdate T) :
    Event T → IncrementalUpdate T × Option (CheckResult T)
  | .put now applyIndex infos => (u.putIncrementalInfo gcTime now applyIndex infos, none)
  | .clear => (u.clear, none)
  | .check lastUpdatedIndex appliedIndex =>
    (u, some (u.checkAndUpdateIncremental lastUpdatedIndex appliedIndex))

/-- Everything that a run puts, in its order. -/
def puts (events : List (Event T)) : List (Int × T) :=
  events.filterMap fun
    | .put _ applyIndex infos => some (applyIndex, infos)
    | _ => none

/-- Entries with indexes that ascend. -/
def Ascending (l : List (Int × T)) : Prop := l.Pairwise fun a b => a.1 < b.1

/-- The entries of a list that a reader at `lastUpdatedIndex` is to be given. -/
def between (lastUpdatedIndex appliedIndex : Int) (l : List (Int × T)) : List (Int × T) :=
  l.filter fun e => lastUpdatedIndex < e.1 ∧ e.1 ≤ appliedIndex

/-- The greatest index of the entries, or the one given where there is none. -/
def greatest (index : Int) (l : List (Int × T)) : Int := (l.getLast?.map Prod.fst).getD index

section Lists

variable {l kept gone : List (Int × T)} {lastUpdatedIndex appliedIndex : Int}

theorem greatest_cons (index : Int) (e : Int × T) (l : List (Int × T)) :
    greatest index (e :: l) = greatest e.1 l := by
  cases l with
  | nil => rfl
  | cons f l =>
    have last : (e :: f :: l).getLast? = (f :: l).getLast? := List.getLast?_cons_cons
    rw [greatest, last, greatest]
    cases h : (f :: l).getLast? with
    | none => simp at h
    | some g => rfl

theorem greatest_append (index : Int) (l l' : List (Int × T)) :
    greatest index (l ++ l') = greatest (greatest index l) l' := by
  induction l generalizing index with
  | nil => rfl
  | cons e l ih => rw [List.cons_append, greatest_cons, ih, greatest_cons]

theorem updateUpTo_eq (appliedIndex : Int) (ascending : Ascending l) (s : List T × Int) :
    updateUpTo appliedIndex l s =
      (s.1 ++ (l.filter fun e => e.1 ≤ appliedIndex).map Prod.snd,
        greatest s.2 (l.filter fun e => e.1 ≤ appliedIndex)) := by
  induction l generalizing s with
  | nil => simp [updateUpTo, greatest]
  | cons e l ih =>
    obtain ⟨above, tail⟩ := List.pairwise_cons.mp ascending
    unfold updateUpTo
    split
    next beyond =>
      have none : (e :: l).filter (fun e => e.1 ≤ appliedIndex) = [] := by
        rw [List.filter_eq_nil_iff]
        intro f mem
        rw [decide_eq_true_eq]
        rcases List.mem_cons.mp mem with rfl | mem
        · omega
        · have greater := above f mem
          omega
      rw [none, List.map_nil, List.append_nil]
      rfl
    next within =>
      rw [ih tail, List.filter_cons_of_pos (by simpa using within), List.map_cons, greatest_cons,
        List.append_assoc]
      rfl

theorem greatest_cases (index : Int) (l : List (Int × T)) :
    greatest index l = index ∨ ∃ e ∈ l, greatest index l = e.1 := by
  cases last : l.getLast? with
  | none =>
    left
    rw [greatest, last]
    rfl
  | some e =>
    right
    refine ⟨e, List.mem_of_getLast? last, ?_⟩
    rw [greatest, last]
    rfl

/-- Entries after those that were given are not passed over. -/
theorem between_greatest (ascending : Ascending (kept ++ l)) :
    between (greatest lastUpdatedIndex (between lastUpdatedIndex appliedIndex kept)) appliedIndex
      l = between lastUpdatedIndex appliedIndex l := by
  rcases greatest_cases lastUpdatedIndex (between lastUpdatedIndex appliedIndex kept) with
    stays | ⟨f, given, eq⟩
  · rw [stays]
  · obtain ⟨mem, range⟩ := List.mem_filter.mp given
    rw [decide_eq_true_eq] at range
    rw [eq]
    apply List.filter_congr
    intro e he
    have later : f.1 < e.1 := (List.pairwise_append.mp ascending).2.2 f mem e he
    have past : lastUpdatedIndex < e.1 := range.1.trans later
    simp [later, past]

theorem between_of_reached (reached : appliedIndex ≤ lastUpdatedIndex) :
    between lastUpdatedIndex appliedIndex l = [] := by
  rw [between, List.filter_eq_nil_iff]
  intro e _
  rw [decide_eq_true_eq]
  omega

theorem between_append : between lastUpdatedIndex appliedIndex (l ++ kept) =
    between lastUpdatedIndex appliedIndex l ++ between lastUpdatedIndex appliedIndex kept :=
  List.filter_append ..

/-- A reader who has what comes first in the list needs nothing from before it. -/
theorem between_kept (appliedIndex : Int) {first : Int × T}
    (ascending : Ascending (gone ++ first :: kept)) (read : first.1 ≤ lastUpdatedIndex) :
    between lastUpdatedIndex appliedIndex (gone ++ first :: kept) =
      between lastUpdatedIndex appliedIndex (first :: kept) := by
  have nothing : between lastUpdatedIndex appliedIndex gone = [] := by
    rw [between, List.filter_eq_nil_iff]
    intro e mem
    have before : e.1 < first.1 :=
      (List.pairwise_append.mp ascending).2.2 e mem first List.mem_cons_self
    rw [decide_eq_true_eq]
    omega
  rw [between_append, nothing, List.nil_append]

end Lists

section Buffers

variable {lastUpdatedIndex appliedIndex : Int}

theorem ascending_toList (m : Table Int T) : Ascending m.toList := by
  have sorted : m.toList.Pairwise fun a b => compare a.1 b.1 = .lt :=
    Std.ExtTreeMap.ordered_keys_toList
  exact sorted.imp fun less => compare_lt_iff_lt.mp less

/-- An entry with a greater index than all others comes last. -/
theorem toList_insert_last {m : Table Int T} {applyIndex : Int} (infos : T)
    (last : ∀ e ∈ m.toList, e.1 < applyIndex) :
    (m.insert applyIndex infos).toList = m.toList ++ [(applyIndex, infos)] := by
  have absent : m[applyIndex]? = none := by
    cases found : m[applyIndex]? with
    | none => rfl
    | some other =>
      have less := last (applyIndex, other)
        (Std.ExtTreeMap.mem_toList_iff_getElem?_eq_some.mpr found)
      simp at less
  have perm := Table.toList_insert_perm m applyIndex infos
  rw [Table.erase_of_none absent] at perm
  have perm' := perm.trans (List.perm_append_singleton (applyIndex, infos) m.toList).symm
  have ascending : Ascending (m.toList ++ [(applyIndex, infos)]) := by
    refine List.pairwise_append.mpr ⟨ascending_toList m, List.pairwise_singleton _ _, ?_⟩
    intro e mem f hf
    rw [List.mem_singleton.mp hf]
    exact last e mem
  refine List.Perm.eq_of_pairwise (fun e f _ _ less more => ?_) (ascending_toList _) ascending perm'
  exact absurd more (by omega)

/-- What the loop gives a reader from one buffer. -/
theorem updateUpTo_upperBound (appliedIndex : Int) (m : Table Int T) (s : List T × Int) :
    updateUpTo appliedIndex (upperBound m s.2) s =
      (s.1 ++ (between s.2 appliedIndex m.toList).map Prod.snd,
        greatest s.2 (between s.2 appliedIndex m.toList)) := by
  have ascending : Ascending (upperBound m s.2) := (ascending_toList m).filter _
  have both : (upperBound m s.2).filter (fun e => e.1 ≤ appliedIndex) =
      between s.2 appliedIndex m.toList := by
    rw [upperBound, List.filter_filter, between]
    apply List.filter_congr
    intro e _
    rw [Bool.and_comm, Bool.decide_and]
  rw [updateUpTo_eq appliedIndex ascending, both]

/-- The two buffers hold the last part of what was put, the foreground its earlier half. -/
def KeepsLast (puts : List (Int × T)) (u : IncrementalUpdate T) : Prop :=
  ∃ gone, puts = gone ++ (u.frontground.toList ++ u.background.toList)

variable {u : IncrementalUpdate T} {puts : List (Int × T)}

theorem keepsLast_start : KeepsLast [] ({} : IncrementalUpdate T) := ⟨[], rfl⟩

theorem keepsLast_clear (puts : List (Int × T)) (u : IncrementalUpdate T) :
    KeepsLast puts u.clear :=
  ⟨puts, by simp [IncrementalUpdate.clear, frontground, background]⟩

theorem KeepsLast.put {applyIndex : Int} {infos : T} (h : KeepsLast puts u) (gcTime now : Int)
    (ascending : Ascending (puts ++ [(applyIndex, infos)])) :
    KeepsLast (puts ++ [(applyIndex, infos)])
      (u.putIncrementalInfo gcTime now applyIndex infos) := by
  obtain ⟨gone, rfl⟩ := h
  have last : ∀ e ∈ u.background.toList, e.1 < applyIndex := fun e mem =>
    (List.pairwise_append.mp ascending).2.2 e (by simp [mem]) _ List.mem_cons_self
  have grown := toList_insert_last infos last
  have kept : KeepsLast (gone ++ (u.frontground.toList ++ u.background.toList) ++
      [(applyIndex, infos)])
      { u with buf := u.buf.setBackground (u.background.insert applyIndex infos) } := by
    refine ⟨gone, ?_⟩
    simp only [frontground, background, DoubleBuffer.read_setBackground,
      DoubleBuffer.readBackground_setBackground] at grown ⊢
    rw [grown, List.append_assoc, List.append_assoc]
  unfold putIncrementalInfo
  dsimp only
  split
  next => exact kept
  next =>
    split
    next =>
      -- the old foreground is dropped, and the background takes its place
      refine ⟨gone ++ u.frontground.toList, ?_⟩
      simp only [frontground, background, DoubleBuffer.read_swap, DoubleBuffer.readBackground_swap,
        DoubleBuffer.read_setRead, DoubleBuffer.readBackground_setRead,
        DoubleBuffer.readBackground_setBackground] at grown ⊢
      rw [grown]
      simp
    next => exact kept

theorem puts_append (events : List (Event T)) (e : Event T) :
    IncrementalUpdate.puts (events ++ [e]) =
      IncrementalUpdate.puts events ++ IncrementalUpdate.puts [e] :=
  List.filterMap_append

theorem keepsLast_run (gcTime : Int) (events : List (Event T))
    (ascending : Ascending (IncrementalUpdate.puts events)) :
    KeepsLast (IncrementalUpdate.puts events) (Run.all (step gcTime) {} events).1 := by
  induction events using List.reverseRecOn with
  | nil => exact keepsLast_start
  | append_singleton events e ih =>
    rw [puts_append] at ascending ⊢
    have kept := ih (List.pairwise_append.mp ascending).1
    rw [Run.all_append]
    cases e with
    | put now applyIndex infos => exact kept.put gcTime now ascending
    | clear =>
      rw [show IncrementalUpdate.puts [Event.clear (T := T)] = [] from rfl, List.append_nil]
      exact keepsLast_clear _ _
    | check lastUpdatedIndex appliedIndex =>
      rw [show IncrementalUpdate.puts [Event.check (T := T) lastUpdatedIndex appliedIndex] = []
        from rfl, List.append_nil]
      exact kept

/-- An answer tells a reader to update in full, or gives it all that was put after its
own index and is applied, in order. -/
structure Complete (puts : List (Int × T)) (lastUpdatedIndex appliedIndex : Int)
    (r : CheckResult T) : Prop where
  full : r.fullUpdate = true → r.updates = [] ∧ r.lastUpdatedIndex = lastUpdatedIndex
  updates : r.fullUpdate = false →
    r.updates = (between lastUpdatedIndex appliedIndex puts).map Prod.snd
  index : r.fullUpdate = false → r.lastUpdatedIndex =
    greatest lastUpdatedIndex (between lastUpdatedIndex appliedIndex puts)

theorem KeepsLast.complete (h : KeepsLast puts u) (ascending : Ascending puts)
    (lastUpdatedIndex appliedIndex : Int) : Complete puts lastUpdatedIndex appliedIndex
      (u.checkAndUpdateIncremental lastUpdatedIndex appliedIndex) := by
  obtain ⟨gone, rfl⟩ := h
  unfold checkAndUpdateIncremental
  split
  next front back =>
    refine ⟨fun _ => ⟨rfl, rfl⟩, fun upToDate => ?_, fun upToDate => ?_⟩
    all_goals
      have reached : appliedIndex ≤ lastUpdatedIndex := by simpa using upToDate
      have nothing := between_of_reached (l := gone ++ (u.frontground.toList ++
        u.background.toList)) reached
      rw [nothing]
      rfl
  next first rest front back =>
    split
    next => exact ⟨fun _ => ⟨rfl, rfl⟩, fun full => by simp at full, fun full => by simp at full⟩
    next unread =>
      have read : first.1 ≤ lastUpdatedIndex := by omega
      rw [front, List.nil_append, back] at ascending
      have needed := between_kept appliedIndex ascending read
      have given := updateUpTo_upperBound appliedIndex u.background ([], lastUpdatedIndex)
      dsimp only at given ⊢
      rw [given, front, List.nil_append, back]
      refine ⟨fun full => by simp at full, fun _ => ?_, fun _ => ?_⟩
      · rw [needed]
        rfl
      · rw [needed]
  next first rest front =>
    split
    next => exact ⟨fun _ => ⟨rfl, rfl⟩, fun full => by simp at full, fun full => by simp at full⟩
    next unread =>
      have read : first.1 ≤ lastUpdatedIndex := by omega
      have kept : Ascending (u.frontground.toList ++ u.background.toList) :=
        (List.pairwise_append.mp ascending).2.1
      rw [front, List.cons_append] at ascending
      have needed := between_kept appliedIndex ascending read
      have first_given := updateUpTo_upperBound appliedIndex u.frontground ([], lastUpdatedIndex)
      have then_given := updateUpTo_upperBound appliedIndex u.background
        ((between lastUpdatedIndex appliedIndex u.frontground.toList).map Prod.snd,
          greatest lastUpdatedIndex (between lastUpdatedIndex appliedIndex u.frontground.toList))
      dsimp only [List.nil_append] at first_given then_given ⊢
      rw [between_greatest kept] at then_given
      rw [← List.cons_append, ← front] at needed
      rw [first_given, then_given]
      refine ⟨fun full => by simp at full, fun _ => ?_, fun _ => ?_⟩
      · rw [needed, between_append, List.map_append]
      · rw [needed, between_append, greatest_append]

end Buffers

/-- A reader who is not told to update in full is given everything put after its own index
that is applied, whatever was collected, swapped or cleared. -/
theorem incremental_updates_complete (gcTime : Int) (events : List (Event T))
    (ascending : Ascending (puts events)) (lastUpdatedIndex appliedIndex : Int) :
    Complete (puts events) lastUpdatedIndex appliedIndex
      ((Run.all (step gcTime) {} events).1.checkAndUpdateIncremental lastUpdatedIndex
        appliedIndex) :=
  (keepsLast_run gcTime events ascending).complete ascending lastUpdatedIndex appliedIndex

/-- The first two entries are in the foreground, the third one is in the background: a reader
that has the first one is given the other two. -/
theorem late_reader_complete :
    let u := (Run.all (step 10) ({} : IncrementalUpdate Nat)
      [.put 0 1 10, .put 20 2 20, .put 30 3 30]).1
    let r := u.checkAndUpdateIncremental 1 9
    r.fullUpdate = false ∧ r.updates = [20, 30] ∧ r.lastUpdatedIndex = 3 := by
  intro u r
  have complete := incremental_updates_complete 10
    [.put 0 1 10, .put 20 2 20, .put 30 3 (30 : Nat)] (by simp [Ascending, puts]) 1 9
  have partly : r.fullUpdate = false := by decide
  exact ⟨partly, complete.updates partly, complete.index partly⟩

end IncrementalUpdate

end EA
