import EA.Lib.Table

universe u v w

set_option linter.unusedSectionVars false

/-! Tables of tables, where no inner table is kept empty. -/

namespace Nested

variable {κ : Type u} {ι : Type v} {β : Type w} [Ord κ] [Std.TransOrd κ] [Std.LawfulEqOrd κ]
  [Ord ι] [Std.TransOrd ι] [Std.LawfulEqOrd ι]

def find (m : Table κ (Table ι β)) (k : κ) (i : ι) : Option β :=
  (m[k]?).bind fun t => t[i]?

def put (m : Table κ (Table ι β)) (k : κ) (i : ι) (v : β) : Table κ (Table ι β) :=
  m.insert k ((m.getD k default).insert i v)

/-- Replaces an inner table, and drops it when nothing is left in it. -/
def keep (m : Table κ (Table ι β)) (k : κ) (t : Table ι β) : Table κ (Table ι β) :=
  if t.isEmpty then m.erase k else m.insert k t

/-- Removes an entry, and its inner table with the last one. -/
def remove (m : Table κ (Table ι β)) (k : κ) (i : ι) (t : Table ι β) : Table κ (Table ι β) :=
  if (t.erase i).isEmpty then m.erase k else m.insert k (t.erase i)

def NoEmpty (m : Table κ (Table ι β)) : Prop :=
  ∀ (k : κ) (t : Table ι β), m[k]? = some t → ∃ (i : ι) (v : β), t[i]? = some v

variable {m m' : Table κ (Table ι β)} {k j : κ} {i l : ι} {v : β} {t : Table ι β}

theorem find_of_lookup (h : m[k]? = some t) : find m k i = t[i]? := by
  rw [find, h]
  rfl

theorem find_eq_some : find m k i = some v ↔ ∃ t, m[k]? = some t ∧ t[i]? = some v :=
  Option.bind_eq_some_iff

theorem find_getD (m : Table κ (Table ι β)) (k : κ) (i : ι) :
    (m.getD k default)[i]? = find m k i := by
  rw [Table.getD_eq, find]
  cases m[k]? with
  | none => exact Std.ExtTreeMap.getElem?_empty
  | some t => rfl

theorem find_insert_self : find (m.insert k t) k i = t[i]? :=
  find_of_lookup (Table.lookup_insert_self m k t)

theorem find_insert_ne (ne : k ≠ j) : find (m.insert k t) j i = find m j i := by
  rw [find, Table.lookup_insert_ne m t ne, find]

theorem find_touch (m : Table κ (Table ι β)) (k j : κ) (i : ι) :
    find (Table.touch m k) j i = find m j i := by
  rw [← find_getD, Table.getD_touch, find_getD]

theorem find_erase_self : find (m.erase k) k i = none := by
  rw [find, Table.lookup_erase_self]
  rfl

theorem find_erase_ne (ne : k ≠ j) : find (m.erase k) j i = find m j i := by
  rw [find, Table.lookup_erase_ne m ne, find]

theorem find_put_self : find (put m k i v) k i = some v := by
  rw [put, find_insert_self]
  exact Table.lookup_insert_self ..

theorem find_put_ne (ne : (k, i) ≠ (j, l)) : find (put m k i v) j l = find m j l := by
  by_cases same : k = j
  · subst j
    have inner : i ≠ l := fun eq => ne (by rw [eq])
    rw [put, find_insert_self, Table.lookup_insert_ne _ _ inner]
    exact find_getD m k l
  · exact find_insert_ne same

theorem find_keep_self : find (keep m k t) k i = t[i]? := by
  unfold keep
  split
  next empty =>
    rw [Std.ExtTreeMap.isEmpty_iff.mp empty, find_erase_self]
    exact Std.ExtTreeMap.getElem?_empty.symm
  next => exact find_insert_self

theorem find_keep_ne (ne : k ≠ j) : find (keep m k t) j i = find m j i := by
  unfold keep
  split
  next => exact find_erase_ne ne
  next => exact find_insert_ne ne

theorem remove_eq_keep : remove m k i t = keep m k (t.erase i) := rfl

theorem find_remove_self : find (remove m k i t) k i = none := by
  rw [remove_eq_keep, find_keep_self]
  exact Table.lookup_erase_self t i

theorem find_remove_ne (found : m[k]? = some t) (ne : (k, i) ≠ (j, l)) :
    find (remove m k i t) j l = find m j l := by
  rw [remove_eq_keep]
  by_cases same : k = j
  · subst j
    have inner : i ≠ l := fun eq => ne (by rw [eq])
    rw [find_keep_self, Table.lookup_erase_ne t inner, find_of_lookup found]
  · exact find_keep_ne same

theorem noEmpty_empty : NoEmpty (∅ : Table κ (Table ι β)) := by
  intro k t found
  simp at found

theorem NoEmpty.insert (h : NoEmpty m) (entry : ∃ (i : ι) (v : β), t[i]? = some v) :
    NoEmpty (m.insert k t) := by
  intro j t' found
  rcases Table.lookup_insert_some found with ⟨_, rfl⟩ | ⟨_, found⟩
  · exact entry
  · exact h j t' found

theorem NoEmpty.erase (h : NoEmpty m) : NoEmpty (m.erase k) :=
  fun j t found => h j t (Table.lookup_erase_some found).2

theorem NoEmpty.put (h : NoEmpty m) : NoEmpty (put m k i v) :=
  h.insert ⟨i, v, Table.lookup_insert_self ..⟩

theorem NoEmpty.keep (h : NoEmpty m) : NoEmpty (keep m k t) := by
  unfold Nested.keep
  split
  next => exact h.erase
  next nonempty =>
    apply h.insert
    by_contra none
    have empty : t = ∅ := by
      apply Std.ExtTreeMap.ext_getElem?
      intro l
      cases hl : t[l]? with
      | none => simp
      | some v => exact absurd ⟨l, v, hl⟩ none
    rw [empty] at nonempty
    simp at nonempty

theorem NoEmpty.remove (h : NoEmpty m) : NoEmpty (remove m k i t) := h.keep

/-- Without empty inner tables, the entries determine the table. -/
theorem ext (h : NoEmpty m) (h' : NoEmpty m') (same : ∀ k i, find m k i = find m' k i) :
    m = m' := by
  have present : ∀ {m m' : Table κ (Table ι β)}, NoEmpty m → (∀ k i, find m k i = find m' k i) →
      ∀ (k : κ) (t : Table ι β), m[k]? = some t → m'[k]? = some t := by
    intro m m' h same k t found
    obtain ⟨i, v, hv⟩ := h k t found
    have entry : find m' k i = some v := by
      rw [← same k i, find_of_lookup found, hv]
    obtain ⟨t', found', _⟩ := find_eq_some.mp entry
    have eq : t' = t := by
      apply Std.ExtTreeMap.ext_getElem?
      intro l
      rw [← find_of_lookup found', ← same k l, find_of_lookup found]
    rw [found', eq]
  apply Std.ExtTreeMap.ext_getElem?
  intro k
  cases found : m[k]? with
  | some t => exact (present h same k t found).symm
  | none =>
    cases found' : m'[k]? with
    | none => rfl
    | some t =>
      have here := present h' (fun k i => (same k i).symm) k t found'
      rw [found] at here
      simp at here

end Nested
