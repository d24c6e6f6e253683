import EA.Lib.Table

universe u v

/-! Logs of puts and deletes, and files that are copied into a table. -/

set_option linter.unusedSectionVars false

namespace Writes

variable {κ : Type u} {β : Type v} [Ord κ] [Std.TransOrd κ] [Std.LawfulEqOrd κ]

/-- A put of `some` value, or a delete. -/
def write (m : Table κ β) (op : κ × Option β) : Table κ β :=
  match op.2 with
  | some value => m.insert op.1 value
  | none => m.erase op.1

def replay (ops : List (κ × Option β)) (m : Table κ β) : Table κ β := ops.foldl write m

/-- The keys that a log has anything to say about. -/
def keys (ops : List (κ × Option β)) : List κ := ops.map Prod.fst

theorem lookup_write_self (m : Table κ β) (op : κ × Option β) : (write m op)[op.1]? = op.2 := by
  rcases op with ⟨k, v⟩
  cases v with
  | none => exact Table.lookup_erase_self m k
  | some value => exact Table.lookup_insert_self m k value

theorem lookup_write_ne (m : Table κ β) {op : κ × Option β} {k : κ} (ne : op.1 ≠ k) :
    (write m op)[k]? = m[k]? := by
  rcases op with ⟨k', v⟩
  cases v with
  | none => exact Table.lookup_erase_ne m ne
  | some value => exact Table.lookup_insert_ne m value ne

theorem replay_append (ops later : List (κ × Option β)) (m : Table κ β) :
    replay (ops ++ later) m = replay later (replay ops m) :=
  List.foldl_append

theorem lookup_replay_of_not_mem {ops : List (κ × Option β)} {k : κ} (absent : k ∉ keys ops)
    (m : Table κ β) : (replay ops m)[k]? = m[k]? := by
  induction ops generalizing m with
  | nil => rfl
  | cons op ops ih =>
    have apart : k ≠ op.1 ∧ k ∉ keys ops := by simpa [keys] using absent
    have later : (replay ops (write m op))[k]? = (write m op)[k]? := ih apart.2 _
    exact later.trans (lookup_write_ne m fun same => apart.1 same.symm)

/-- What a log leaves under its keys does not depend on what was there. -/
theorem lookup_replay_of_mem {ops : List (κ × Option β)} {k : κ} (named : k ∈ keys ops)
    (m m' : Table κ β) : (replay ops m)[k]? = (replay ops m')[k]? := by
  induction ops generalizing m m' with
  | nil => simp [keys] at named
  | cons op ops ih =>
    by_cases later : k ∈ keys ops
    · exact ih later (write m op) (write m' op)
    · have here : op.1 = k := by
        have cases : k = op.1 ∨ k ∈ keys ops := by simpa [keys] using named
        rcases cases with same | mem
        · exact same.symm
        · exact absurd mem later
      have first : (replay ops (write m op))[k]? = op.2 := by
        rw [lookup_replay_of_not_mem later, ← here, lookup_write_self]
      have second : (replay ops (write m' op))[k]? = op.2 := by
        rw [lookup_replay_of_not_mem later, ← here, lookup_write_self]
      exact first.trans second.symm

/-- A log replayed over leftovers of its own keys gives what it gives from nothing. -/
theorem replay_of_leftover {ops : List (κ × Option β)} {m : Table κ β}
    (own : ∀ k ∈ m, k ∈ keys ops) : replay ops m = replay ops ∅ := by
  apply Std.ExtTreeMap.ext_getElem?
  intro k
  by_cases named : k ∈ keys ops
  · exact lookup_replay_of_mem named m ∅
  · have none : m[k]? = none := by
      have missing : k ∉ m := fun mem => named (own k mem)
      simpa using missing
    rw [lookup_replay_of_not_mem named, lookup_replay_of_not_mem named, none]
    simp

theorem mem_replay {ops : List (κ × Option β)} {m : Table κ β} {k : κ} (h : k ∈ replay ops m) :
    k ∈ m ∨ k ∈ keys ops := by
  by_cases named : k ∈ keys ops
  · exact Or.inr named
  · obtain ⟨v, found⟩ := Table.mem_iff_lookup.mp h
    rw [lookup_replay_of_not_mem named] at found
    exact Or.inl (Table.mem_iff_lookup.mpr ⟨v, found⟩)

def removeRange (range : κ → Bool) (m : Table κ β) : Table κ β :=
  Table.insertAll Prod.fst Prod.snd (Table.scan (fun k => !range k) m) ∅

def ingest (file m : Table κ β) : Table κ β := Table.insertAll Prod.fst Prod.snd file.toList m

theorem removeRange_eq_empty {range : κ → Bool} {m : Table κ β} (inside : ∀ k ∈ m, range k = true) :
    removeRange range m = ∅ := by
  have none : Table.scan (fun k => !range k) m = [] := by
    apply List.eq_nil_iff_forall_not_mem.mpr
    rintro ⟨k, v⟩ mem
    obtain ⟨stored, apart⟩ := Table.mem_scan.mp mem
    have here := inside k (Table.mem_iff_lookup.mpr ⟨v, stored⟩)
    simp [here] at apart
  rw [removeRange, none, Table.insertAll_nil]

theorem ingest_empty (file : Table κ β) : ingest file ∅ = file := by
  apply Table.insertAll_eq
  intro k v
  rw [← Std.ExtTreeMap.mem_toList_iff_getElem?_eq_some]
  constructor
  · exact fun mem => ⟨(k, v), mem, rfl, rfl⟩
  · rintro ⟨⟨k', v'⟩, mem, rfl, rfl⟩
    exact mem

end Writes
