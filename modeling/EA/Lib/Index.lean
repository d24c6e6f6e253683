import EA.Lib.Table

universe u v w

/-- A map from keys to sets, where a missing key stands for the empty set. -/
abbrev Index (κ : Type u) (α : Type v) [Ord κ] [Ord α] := Table κ (Std.ExtTreeSet α compare)

set_option linter.unusedSectionVars false

namespace Index

variable {κ : Type u} {α : Type v} [Ord κ] [Std.TransOrd κ] [Std.LawfulEqOrd κ]
  [Ord α] [Std.TransOrd α] [Std.LawfulEqOrd α]

def members (m : Index κ α) (k : κ) : Std.ExtTreeSet α compare := m.getD k ∅

def Has (m : Index κ α) (k : κ) (a : α) : Prop := a ∈ members m k

def add (m : Index κ α) (k : κ) (a : α) : Index κ α := m.insert k ((members m k).insert a)

def remove (m : Index κ α) (k : κ) (a : α) : Index κ α :=
  if k ∈ m then m.insert k ((members m k).erase a) else m

theorem members_of_none {m : Index κ α} {k : κ} (h : m[k]? = none) : members m k = ∅ := by
  rw [members, Table.getD_eq, h]
  rfl

theorem members_insert_self (m : Index κ α) (k : κ) (s : Std.ExtTreeSet α compare) :
    members (m.insert k s) k = s := by
  rw [members, Table.getD_eq, Table.lookup_insert_self]
  rfl

theorem members_insert_ne (m : Index κ α) {k j : κ} (s : Std.ExtTreeSet α compare) (ne : k ≠ j) :
    members (m.insert k s) j = members m j := by
  rw [members, members, Table.getD_eq, Table.getD_eq, Table.lookup_insert_ne m s ne]

theorem not_has_empty (k : κ) (a : α) : ¬ Has (∅ : Index κ α) k a := by
  simp [Has, members]

theorem isEmpty_members {m : Index κ α} {k : κ} :
    (members m k).isEmpty = true ↔ ∀ a, ¬ Has m k a := by
  rw [Std.ExtTreeSet.isEmpty_iff]
  constructor
  · intro none a
    rw [Has, none]
    simp
  · intro none
    apply Std.ExtTreeSet.ext_mem
    intro a
    have absent : a ∉ members m k := none a
    simpa using absent

theorem has_add {m : Index κ α} {k j : κ} {a b : α} :
    Has (add m k a) j b ↔ (j = k ∧ b = a) ∨ Has m j b := by
  by_cases same : k = j
  · subst j
    rw [Has, add, members_insert_self, Std.ExtTreeSet.mem_insert,
      Std.LawfulEqOrd.compare_eq_iff_eq, eq_comm]
    simp [Has]
  · rw [Has, add, members_insert_ne m _ same]
    have other : j ≠ k := Ne.symm same
    simp [Has, other]

theorem has_remove {m : Index κ α} {k j : κ} {a b : α} :
    Has (remove m k a) j b ↔ Has m j b ∧ ¬ (j = k ∧ b = a) := by
  unfold remove
  split
  next present =>
    by_cases same : k = j
    · subst j
      have differ : compare a b ≠ .eq ↔ ¬ b = a := by
        rw [Ne, Std.LawfulEqOrd.compare_eq_iff_eq, eq_comm]
      rw [Has, members_insert_self, Std.ExtTreeSet.mem_erase, differ]
      simp [Has, and_comm]
    · rw [Has, members_insert_ne m _ same]
      have other : j ≠ k := Ne.symm same
      simp [Has, other]
  next absent =>
    constructor
    · intro has
      refine ⟨has, ?_⟩
      rintro ⟨rfl, _⟩
      have none : m[j]? = none := by simpa using absent
      rw [Has, members_of_none none] at has
      simp at has
    · exact fun h => h.1

theorem has_erase {m : Index κ α} {k j : κ} {b : α} :
    Has (m.erase k) j b ↔ Has m j b ∧ j ≠ k := by
  by_cases same : k = j
  · subst j
    rw [Has, members_of_none (Table.lookup_erase_self m k)]
    simp
  · rw [Has, members, Table.getD_eq, Table.lookup_erase_ne m same, ← Table.getD_eq]
    have other : j ≠ k := Ne.symm same
    simp [Has, members, other]

theorem has_touch {m : Index κ α} {k j : κ} {b : α} : Has (Table.touch m k) j b ↔ Has m j b := by
  rw [Has, Has, members, members]
  exact iff_of_eq (congrArg (b ∈ ·) (Table.getD_touch m k j))

def addAll {ρ : Type*} (key : ρ → κ) (val : ρ → α) (rs : List ρ) (m : Index κ α) : Index κ α :=
  rs.foldl (fun m r => add m (key r) (val r)) m

theorem has_addAll {ρ : Type*} {key : ρ → κ} {val : ρ → α} {rs : List ρ} {m : Index κ α} {k : κ}
    {a : α} : Has (addAll key val rs m) k a ↔ Has m k a ∨ ∃ r ∈ rs, key r = k ∧ val r = a := by
  induction rs generalizing m with
  | nil => simp [addAll]
  | cons r rs ih =>
    have step : addAll key val (r :: rs) m = addAll key val rs (add m (key r) (val r)) := rfl
    have swap : (k = key r ∧ a = val r) ↔ (key r = k ∧ val r = a) := by
      rw [eq_comm (a := k), eq_comm (a := a)]
    rw [step, ih, has_add, swap]
    simp only [List.mem_cons, exists_eq_or_imp]
    rw [or_assoc, or_left_comm]

section Exact

variable {β : Type w} {f : β → κ} {index : Index κ α} {m : Table α β}

/-- The sets may miss entries, but every entry in them is there under its key. -/
def Sound (f : β → κ) (index : Index κ α) (m : Table α β) : Prop :=
  ∀ k a, Has index k a → ∃ v, m[a]? = some v ∧ f v = k

theorem Sound.insert (h : Sound f index m) {a : α} {v : β}
    (same : ∀ old, m[a]? = some old → f old = f v) :
    Sound f (add index (f v) a) (m.insert a v) := by
  intro k b has
  by_cases eq : a = b
  · subst b
    refine ⟨v, Table.lookup_insert_self .., ?_⟩
    rcases has_add.mp has with ⟨key, _⟩ | has
    · exact key.symm
    · obtain ⟨old, found, key⟩ := h k a has
      exact (same old found).symm.trans key
  · rcases has_add.mp has with ⟨_, self⟩ | has
    · exact absurd self.symm eq
    · obtain ⟨w, found, key⟩ := h k b has
      exact ⟨w, (Table.lookup_insert_ne m v eq).trans found, key⟩

/-- The whole set of an entry's key may go with the entry. -/
theorem Sound.erase (h : Sound f index m) {a : α} {v : β} (found : m[a]? = some v) :
    Sound f (index.erase (f v)) (m.erase a) := by
  intro k b has
  obtain ⟨has, ne⟩ := has_erase.mp has
  obtain ⟨w, hw, key⟩ := h k b has
  have differ : a ≠ b := by
    intro eq
    subst b
    cases Option.some.inj (found.symm.trans hw)
    exact ne key.symm
  exact ⟨w, (Table.lookup_erase_ne m differ).trans hw, key⟩

/-- A secondary index of `m` by `f`: a key's set is the set of the entries with it. -/
def Exact (f : β → κ) (index : Index κ α) (m : Table α β) : Prop :=
  ∀ k a, Has index k a ↔ ∃ v, m[a]? = some v ∧ f v = k

theorem Exact.sound (h : Exact f index m) : Sound f index m := fun k a has => (h k a).mp has

theorem exact_empty (f : β → κ) : Exact f (∅ : Index κ α) ∅ := by
  intro k a
  simp [not_has_empty]

/-- A new entry, or one that keeps its key. -/
theorem Exact.insert (h : Exact f index m) {a : α} {v : β}
    (same : ∀ old, m[a]? = some old → f old = f v) :
    Exact f (add index (f v) a) (m.insert a v) := by
  intro k b
  refine ⟨h.sound.insert same k b, fun has => ?_⟩
  obtain ⟨w, found, key⟩ := has
  rw [has_add]
  by_cases eq : a = b
  · subst b
    rw [Table.lookup_insert_self] at found
    cases Option.some.inj found
    exact Or.inl ⟨key.symm, rfl⟩
  · rw [Table.lookup_insert_ne m v eq] at found
    exact Or.inr ((h k b).mpr ⟨w, found, key⟩)

theorem Exact.of_has_iff {index' : Index κ α} (h : Exact f index m)
    (same : ∀ k a, Has index' k a ↔ Has index k a) : Exact f index' m :=
  fun k a => (same k a).trans (h k a)

/-- An entry that keeps its key is already in the set. -/
theorem Exact.replace (h : Exact f index m) {a : α} {old v : β} (found : m[a]? = some old)
    (same : f v = f old) : Exact f index (m.insert a v) := by
  have inserted : Exact f (add index (f v) a) (m.insert a v) := by
    refine h.insert fun old' found' => ?_
    cases Option.some.inj (found.symm.trans found')
    exact same.symm
  refine inserted.of_has_iff fun k b => ?_
  rw [has_add]
  refine ⟨Or.inr, fun has => ?_⟩
  rcases has with ⟨rfl, rfl⟩ | has
  · exact (h _ _).mpr ⟨old, found, same.symm⟩
  · exact has

theorem Exact.remove (h : Exact f index m) {a : α} {v : β} (found : m[a]? = some v) :
    Exact f (remove index (f v) a) (m.erase a) := by
  intro k b
  rw [has_remove, h k b]
  by_cases eq : a = b
  · subst b
    rw [Table.lookup_erase_self]
    refine ⟨fun has => ?_, fun has => ?_⟩
    · obtain ⟨⟨w, hw, key⟩, differ⟩ := has
      cases Option.some.inj (found.symm.trans hw)
      exact absurd ⟨key.symm, rfl⟩ differ
    · obtain ⟨w, hw, _⟩ := has
      simp at hw
  · rw [Table.lookup_erase_ne m eq]
    have other : b ≠ a := Ne.symm eq
    simp [other]

/-- Erasing a whole set is right where the entry is alone in it. -/
theorem Exact.erase (h : Exact f index m) {a : α} {v : β} (found : m[a]? = some v)
    (alone : ∀ b w, m[b]? = some w → f w = f v → b = a) :
    Exact f (index.erase (f v)) (m.erase a) := by
  intro k b
  refine ⟨h.sound.erase found k b, fun has => ?_⟩
  obtain ⟨w, hw, key⟩ := has
  obtain ⟨ne, hw⟩ := Table.lookup_erase_some hw
  refine has_erase.mpr ⟨(h k b).mpr ⟨w, hw, key⟩, fun eq => ?_⟩
  exact ne (alone b w hw (key.trans eq)).symm

/-- An index is rebuilt from a list of all entries. -/
theorem exact_addAll {idOf : β → α} {rs : List β} (listed : ∀ v, v ∈ rs ↔ m[idOf v]? = some v)
    (carries : ∀ a v, m[a]? = some v → idOf v = a) : Exact f (addAll f idOf rs ∅) m := by
  intro k a
  rw [has_addAll]
  refine ⟨fun has => ?_, fun has => ?_⟩
  · rcases has with has | ⟨v, mem, key, id⟩
    · exact absurd has (not_has_empty k a)
    · exact ⟨v, by rw [← id]; exact (listed v).mp mem, key⟩
  · obtain ⟨v, found, key⟩ := has
    have id := carries a v found
    exact Or.inr ⟨v, (listed v).mpr (by rw [id]; exact found), key, id⟩

theorem Exact.members_eq {index' : Index κ α} (h : Exact f index m) (h' : Exact f index' m)
    (k : κ) : members index' k = members index k := by
  apply Std.ExtTreeSet.ext_mem
  intro a
  exact (h' k a).trans (h k a).symm

/-- The set lists the entries with the key, each once. -/
theorem Exact.perm [DecidableEq κ] (h : Exact f index m) (k : κ) :
    (members index k).toList.Perm ((m.toList.filter fun e => f e.2 = k).map Prod.fst) := by
  have distinct : (m.toList.map Prod.fst).Nodup := by
    rw [Std.ExtTreeMap.map_fst_toList_eq_keys]
    exact Std.ExtTreeMap.nodup_keys
  have unequal : (members index k).toList.Nodup := by
    refine Std.ExtTreeSet.distinct_toList.imp fun ne eq => ne ?_
    rw [eq]
    exact Std.LawfulEqOrd.compare_eq_iff_eq.mpr rfl
  apply (List.perm_ext_iff_of_nodup unequal (distinct.sublist (List.filter_sublist.map _))).mpr
  intro a
  have has : a ∈ (members index k).toList ↔ Has index k a := Std.ExtTreeSet.mem_toList
  rw [has, h k a, List.mem_map]
  refine ⟨fun entry => ?_, fun entry => ?_⟩
  · obtain ⟨v, found, key⟩ := entry
    refine ⟨(a, v), List.mem_filter.mpr ⟨?_, by simpa using key⟩, rfl⟩
    exact Std.ExtTreeMap.mem_toList_iff_getElem?_eq_some.mpr found
  · obtain ⟨e, mem, eq⟩ := entry
    obtain ⟨listed, key⟩ := List.mem_filter.mp mem
    subst eq
    exact ⟨e.2, Std.ExtTreeMap.mem_toList_iff_getElem?_eq_some.mp listed, by simpa using key⟩

end Exact

end Index
