import Mathlib

universe u v w x

/-- Ordered maps with lawful comparison: equal contents are equal maps. -/
abbrev Table (κ : Type u) (β : Type v) [Ord κ] := Std.ExtTreeMap κ β compare

set_option linter.unusedSectionVars false

/-! Records put one after the other into a store that is read through `look`. -/

namespace Fold

variable {σ : Type u} {ι : Type v} {β : Type w} {ρ : Type x} (look : σ → ι → Option β)
  (key : ρ → ι) {put : σ → ρ → σ} {val : ρ → β}

theorem lookup_of_absent (other : ∀ s r i, key r ≠ i → look (put s r) i = look s i)
    {rs : List ρ} {i : ι} (absent : ∀ r ∈ rs, key r ≠ i) (s : σ) :
    look (rs.foldl put s) i = look s i := by
  induction rs generalizing s with
  | nil => rfl
  | cons r rs ih =>
    have here := absent r (by simp)
    rw [List.foldl_cons, ih fun r' hr' => absent r' (List.mem_cons_of_mem _ hr')]
    exact other s r i here

/-- Where all records with one key carry one value, their order is irrelevant. -/
theorem lookup_of_found (other : ∀ s r i, key r ≠ i → look (put s r) i = look s i)
    (self : ∀ s r, look (put s r) (key r) = some (val r)) {rs : List ρ} {i : ι} {v : β}
    (found : ∃ r ∈ rs, key r = i) (agree : ∀ r ∈ rs, key r = i → val r = v) (s : σ) :
    look (rs.foldl put s) i = some v := by
  induction rs generalizing s with
  | nil =>
    obtain ⟨r, hr, _⟩ := found
    simp at hr
  | cons r rs ih =>
    rw [List.foldl_cons]
    by_cases later : ∃ r ∈ rs, key r = i
    · exact ih later (fun r hr => agree r (List.mem_cons_of_mem _ hr)) _
    · have absent : ∀ r ∈ rs, key r ≠ i := fun r hr same => later ⟨r, hr, same⟩
      obtain ⟨r', hr', same⟩ := found
      rcases List.mem_cons.mp hr' with rfl | rest
      · rw [lookup_of_absent look key other absent, ← same, self]
        exact congrArg some (agree r' (by simp) same)
      · exact absurd same (absent r' rest)

end Fold

namespace Table

variable {κ : Type u} {β : Type v} {ρ : Type w} [Ord κ] [Std.TransOrd κ] [Std.LawfulEqOrd κ]

theorem lookup_insert_self (m : Table κ β) (k : κ) (v : β) : (m.insert k v)[k]? = some v := by
  simp

theorem lookup_insert_ne (m : Table κ β) {k a : κ} (v : β) (ne : k ≠ a) :
    (m.insert k v)[a]? = m[a]? := by
  rw [Std.ExtTreeMap.getElem?_insert, if_neg]
  simpa using ne

theorem lookup_erase_self (m : Table κ β) (k : κ) : (m.erase k)[k]? = none := by
  simp

theorem lookup_erase_ne (m : Table κ β) {k a : κ} (ne : k ≠ a) : (m.erase k)[a]? = m[a]? := by
  rw [Std.ExtTreeMap.getElem?_erase, if_neg]
  simpa using ne

theorem lookup_insert_some {m : Table κ β} {k a : κ} {v b : β}
    (h : (m.insert k v)[a]? = some b) : (k = a ∧ v = b) ∨ (k ≠ a ∧ m[a]? = some b) := by
  by_cases eq : k = a
  · subst a
    rw [lookup_insert_self] at h
    exact Or.inl ⟨rfl, Option.some.inj h⟩
  · rw [lookup_insert_ne m v eq] at h
    exact Or.inr ⟨eq, h⟩

theorem lookup_erase_some {m : Table κ β} {k a : κ} {b : β} (h : (m.erase k)[a]? = some b) :
    k ≠ a ∧ m[a]? = some b := by
  by_cases eq : k = a
  · subst a
    simp at h
  · exact ⟨eq, (lookup_erase_ne m eq).symm.trans h⟩

theorem insert_insert (m : Table κ β) (k : κ) (v w : β) :
    (m.insert k v).insert k w = m.insert k w := by
  apply Std.ExtTreeMap.ext_getElem?
  intro a
  by_cases eq : k = a
  · subst a
    rw [lookup_insert_self, lookup_insert_self]
  · rw [lookup_insert_ne _ _ eq, lookup_insert_ne _ _ eq, lookup_insert_ne _ _ eq]

theorem erase_insert (m : Table κ β) (k : κ) (v : β) : (m.erase k).insert k v = m.insert k v := by
  apply Std.ExtTreeMap.ext_getElem?
  intro a
  by_cases eq : k = a
  · subst a
    rw [lookup_insert_self, lookup_insert_self]
  · rw [lookup_insert_ne _ _ eq, lookup_insert_ne _ _ eq, lookup_erase_ne _ eq]

theorem mem_iff_lookup {m : Table κ β} {k : κ} : k ∈ m ↔ ∃ v, m[k]? = some v := by
  rw [Std.ExtTreeMap.mem_iff_isSome_getElem?, Option.isSome_iff_exists]

theorem getD_eq (m : Table κ β) (k : κ) (d : β) : m.getD k d = (m[k]?).getD d :=
  Std.ExtTreeMap.getD_eq_getD_getElem?

theorem lookup_of_getD_ne {m : Table κ β} {k : κ} {d : β} (h : (m[k]?).getD d ≠ d) :
    m[k]? = some ((m[k]?).getD d) := by
  cases hk : m[k]? with
  | none => simp [hk] at h
  | some v => rfl

theorem lookup_of_getD {m : Table κ β} {k : κ} {d v : β} (h : m.getD k d = v) :
    m[k]? = some v ∨ v = d := by
  rw [getD_eq] at h
  cases hk : m[k]? with
  | none =>
    rw [hk] at h
    exact Or.inr h.symm
  | some w =>
    rw [hk] at h
    exact Or.inl (congrArg some h)

section Touch

variable [Inhabited β]

/-- Reading a missing key through a subscript leaves the default value there. -/
def touch (m : Table κ β) (k : κ) : Table κ β :=
  if k ∈ m then m else m.insert k default

theorem touch_of_lookup {m : Table κ β} {k : κ} {v : β} (h : m[k]? = some v) : touch m k = m :=
  if_pos (mem_iff_lookup.mpr ⟨v, h⟩)

theorem touch_of_none {m : Table κ β} {k : κ} (h : m[k]? = none) :
    touch m k = m.insert k default := by
  refine if_neg fun mem => ?_
  obtain ⟨v, hv⟩ := mem_iff_lookup.mp mem
  simp [h] at hv

theorem getD_touch (m : Table κ β) (k a : κ) : (touch m k).getD a default = m.getD a default := by
  cases h : m[k]? with
  | some v => rw [touch_of_lookup h]
  | none =>
    rw [touch_of_none h, getD_eq, getD_eq]
    by_cases eq : k = a
    · subst a
      rw [lookup_insert_self, h]
      rfl
    · rw [lookup_insert_ne m _ eq]

theorem lookup_touch_of_lookup {m : Table κ β} {a : κ} {v : β} (h : m[a]? = some v) (k : κ) :
    (touch m k)[a]? = some v := by
  unfold touch
  split
  next => exact h
  next absent =>
    have ne : k ≠ a := fun eq => absent (mem_iff_lookup.mpr ⟨v, eq ▸ h⟩)
    rwa [lookup_insert_ne m _ ne]

theorem lookup_touch_some {m : Table κ β} {k a : κ} {v : β} (h : (touch m k)[a]? = some v) :
    m[a]? = some v ∨ (k = a ∧ v = default) := by
  unfold touch at h
  split at h
  next => exact Or.inl h
  next =>
    rcases lookup_insert_some h with ⟨rfl, rfl⟩ | ⟨_, old⟩
    · exact Or.inr ⟨rfl, rfl⟩
    · exact Or.inl old

end Touch

/-- Inserting a list of records, later ones on top. -/
def insertAll (key : ρ → κ) (val : ρ → β) (rs : List ρ) (m : Table κ β) : Table κ β :=
  rs.foldl (fun m r => m.insert (key r) (val r)) m

@[simp] theorem insertAll_nil (key : ρ → κ) (val : ρ → β) (m : Table κ β) :
    insertAll key val [] m = m := rfl

@[simp] theorem insertAll_cons (key : ρ → κ) (val : ρ → β) (r : ρ) (rs : List ρ)
    (m : Table κ β) :
    insertAll key val (r :: rs) m = insertAll key val rs (m.insert (key r) (val r)) := rfl

theorem lookup_insertAll_of_absent {key : ρ → κ} {val : ρ → β} {rs : List ρ} {k : κ}
    (absent : ∀ r ∈ rs, key r ≠ k) (m : Table κ β) : (insertAll key val rs m)[k]? = m[k]? := by
  refine Fold.lookup_of_absent (fun (m : Table κ β) k => m[k]?) key ?_ absent m
  exact fun m r k ne => lookup_insert_ne m (val r) ne

theorem lookup_insertAll {key : ρ → κ} {val : ρ → β} {rs : List ρ} {k : κ} {v : β}
    (found : ∃ r ∈ rs, key r = k) (agree : ∀ r ∈ rs, key r = k → val r = v) (m : Table κ β) :
    (insertAll key val rs m)[k]? = some v := by
  refine Fold.lookup_of_found (fun (m : Table κ β) k => m[k]?) key ?_ ?_ found agree m
  · exact fun m r k ne => lookup_insert_ne m (val r) ne
  · exact fun m r => lookup_insert_self m (key r) (val r)

theorem lookup_insertAll_some {key : ρ → κ} {val : ρ → β} {rs : List ρ} {m : Table κ β} {k : κ}
    {v : β} (h : (insertAll key val rs m)[k]? = some v) :
    (∃ r ∈ rs, key r = k ∧ val r = v) ∨ m[k]? = some v := by
  induction rs generalizing m with
  | nil => exact Or.inr h
  | cons r rs ih =>
    rcases ih h with ⟨r', hr', here⟩ | old
    · exact Or.inl ⟨r', List.mem_cons_of_mem _ hr', here⟩
    · rcases lookup_insert_some old with ⟨same, eq⟩ | ⟨_, old⟩
      · exact Or.inl ⟨r, by simp, same, eq⟩
      · exact Or.inr old

theorem mem_insertAll {key : ρ → κ} {val : ρ → β} {rs : List ρ} {m : Table κ β} {k : κ} :
    k ∈ insertAll key val rs m ↔ k ∈ m ∨ ∃ r ∈ rs, key r = k := by
  induction rs generalizing m with
  | nil => simp
  | cons r rs ih => simp [ih, or_left_comm, or_assoc]

/-- Under the key of a record lies that record or another of the key. -/
theorem lookup_insertAll_of_mem {key : ρ → κ} {val : ρ → β} {rs : List ρ} {r : ρ} (hr : r ∈ rs) :
    ∃ r' ∈ rs, key r' = key r ∧ (insertAll key val rs ∅)[key r]? = some (val r') := by
  have present : key r ∈ insertAll key val rs ∅ := mem_insertAll.mpr (Or.inr ⟨r, hr, rfl⟩)
  obtain ⟨v, found⟩ := mem_iff_lookup.mp present
  rcases lookup_insertAll_some found with ⟨r', hr', same, rfl⟩ | none
  · exact ⟨r', hr', same, found⟩
  · simp at none

/-- A table is rebuilt from any list of records that holds exactly its entries. -/
theorem insertAll_eq {key : ρ → κ} {val : ρ → β} {rs : List ρ} {m : Table κ β}
    (exact : ∀ k v, m[k]? = some v ↔ ∃ r ∈ rs, key r = k ∧ val r = v) :
    insertAll key val rs ∅ = m := by
  apply Std.ExtTreeMap.ext_getElem?
  intro k
  cases h : m[k]? with
  | some v =>
    obtain ⟨r, hr, same, _⟩ := (exact k v).mp h
    refine lookup_insertAll ⟨r, hr, same⟩ ?_ _
    intro r' hr' same'
    have again := (exact k (val r')).mpr ⟨r', hr', same', rfl⟩
    exact Option.some.inj (again.symm.trans h)
  | none =>
    have absent : ∀ r ∈ rs, key r ≠ k := by
      intro r hr same
      have present := (exact k (val r)).mpr ⟨r, hr, same, rfl⟩
      simp [h] at present
    rw [lookup_insertAll_of_absent absent]
    simp

/-- The values in key order. -/
def vals (m : Table κ β) : List β := m.toList.map Prod.snd

theorem mem_vals {m : Table κ β} {v : β} : v ∈ m.vals ↔ ∃ k : κ, m[k]? = some v := by
  simp only [vals, List.mem_map, Prod.exists, exists_eq_right,
    Std.ExtTreeMap.mem_toList_iff_getElem?_eq_some]

theorem vals_eq_filterMap (m : Table κ β) : m.vals = m.keys.filterMap fun k => m[k]? := by
  rw [vals, ← Std.ExtTreeMap.map_fst_toList_eq_keys, List.filterMap_map, ← List.filterMap_eq_map]
  refine List.filterMap_congr fun e mem => ?_
  exact (Std.ExtTreeMap.mem_toList_iff_getElem?_eq_some.mp mem).symm

/-- Values in any order are the values of the keys in some order. -/
theorem keys_of_perm_vals {m : Table κ β} {l : List β} (perm : l.Perm m.vals) :
    ∃ ks : List κ, ks.Nodup ∧ (∀ k, k ∈ ks ↔ (m[k]?).isSome) ∧ l = ks.filterMap fun k => m[k]? := by
  have entries : Relation.Comp (· = List.map Prod.snd ·) List.Perm l m.toList := by
    rw [List.eq_map_comp_perm]
    exact perm
  obtain ⟨es, rfl, shuffled⟩ := entries
  have keys : (es.map Prod.fst).Perm m.keys := by
    rw [← Std.ExtTreeMap.map_fst_toList_eq_keys]
    exact shuffled.map Prod.fst
  refine ⟨es.map Prod.fst, ?_, fun k => ?_, ?_⟩
  · exact keys.nodup_iff.mpr Std.ExtTreeMap.nodup_keys
  · rw [keys.mem_iff, Std.ExtTreeMap.mem_keys, Std.ExtTreeMap.mem_iff_isSome_getElem?]
  · rw [List.filterMap_map, ← List.filterMap_eq_map]
    refine List.filterMap_congr fun e mem => ?_
    exact (Std.ExtTreeMap.mem_toList_iff_getElem?_eq_some.mp (shuffled.mem_iff.mp mem)).symm

/-- The entries of a key range in key order. -/
def scan (range : κ → Bool) (m : Table κ β) : List (κ × β) :=
  m.toList.filter fun e => range e.1

theorem mem_scan {range : κ → Bool} {m : Table κ β} {k : κ} {v : β} :
    (k, v) ∈ scan range m ↔ m[k]? = some v ∧ range k = true := by
  rw [scan, List.mem_filter, Std.ExtTreeMap.mem_toList_iff_getElem?_eq_some]

/-- The last entry in key order has the greatest key. -/
theorem getLast?_toList {m : Table κ β} {k : κ} {v : β} (h : m.toList.getLast? = some (k, v)) :
    m[k]? = some v ∧ ∀ (a : κ) (b : β), m[a]? = some b → a = k ∨ compare a k = .lt := by
  obtain ⟨front, split⟩ := List.getLast?_eq_some_iff.mp h
  have sorted : m.toList.Pairwise fun x y => compare x.1 y.1 = .lt :=
    Std.ExtTreeMap.ordered_keys_toList
  refine ⟨?_, fun a b found => ?_⟩
  · have mem : (k, v) ∈ m.toList := by
      rw [split]
      simp
    exact Std.ExtTreeMap.mem_toList_iff_getElem?_eq_some.mp mem
  · have mem := Std.ExtTreeMap.mem_toList_iff_getElem?_eq_some.mpr found
    rw [split] at mem sorted
    rcases List.mem_append.mp mem with before | last
    · exact Or.inr ((List.pairwise_append.mp sorted).2.2 (a, b) before (k, v) (by simp))
    · exact Or.inl (Prod.mk.inj (List.mem_singleton.mp last)).1

theorem getLast?_keys (m : Table κ β) : m.keys.getLast? = (m.toList.getLast?).map Prod.fst := by
  rw [← Std.ExtTreeMap.map_fst_toList_eq_keys, List.getLast?_map]

theorem insert_touch [Inhabited β] (m : Table κ β) (k : κ) (v : β) :
    (touch m k).insert k v = m.insert k v := by
  unfold touch
  split
  next => rfl
  next => exact insert_insert m k default v

theorem nodup_toList (m : Table κ β) : m.toList.Nodup := by
  have distinct : m.toList.Pairwise fun a b => ¬ compare a.1 b.1 = .eq :=
    Std.ExtTreeMap.distinct_keys_toList
  exact distinct.imp fun apart eq => apart (Std.LawfulEqOrd.compare_eq_iff_eq.mpr (by rw [eq]))

theorem toList_insert_perm (m : Table κ β) (k : κ) (v : β) :
    (m.insert k v).toList.Perm ((k, v) :: (m.erase k).toList) := by
  have absent : (k, v) ∉ (m.erase k).toList := fun mem => by
    have found := Std.ExtTreeMap.mem_toList_iff_getElem?_eq_some.mp mem
    rw [lookup_erase_self] at found
    simp at found
  have distinct : ((k, v) :: (m.erase k).toList).Nodup :=
    List.nodup_cons.mpr ⟨absent, nodup_toList _⟩
  refine (List.perm_ext_iff_of_nodup (nodup_toList _) distinct).mpr fun e => ?_
  obtain ⟨a, b⟩ := e
  rw [List.mem_cons, Std.ExtTreeMap.mem_toList_iff_getElem?_eq_some,
    Std.ExtTreeMap.mem_toList_iff_getElem?_eq_some, Prod.mk.injEq]
  by_cases same : k = a
  · subst a
    rw [lookup_insert_self, lookup_erase_self]
    simp [eq_comm]
  · rw [lookup_insert_ne m v same, lookup_erase_ne m same]
    simp [Ne.symm same]

theorem toList_perm_of_lookup {m : Table κ β} {k : κ} {v : β} (h : m[k]? = some v) :
    m.toList.Perm ((k, v) :: (m.erase k).toList) := by
  have same : m.insert k v = m := by
    apply Std.ExtTreeMap.ext_getElem?
    intro a
    by_cases eq : k = a
    · subst a
      rw [lookup_insert_self, h]
    · exact lookup_insert_ne m v eq
  have perm := toList_insert_perm m k v
  rwa [same] at perm

theorem erase_of_none {m : Table κ β} {k : κ} (h : m[k]? = none) : m.erase k = m := by
  apply Std.ExtTreeMap.ext_getElem?
  intro a
  by_cases eq : k = a
  · subst a
    rw [lookup_erase_self, h]
  · exact lookup_erase_ne m eq

end Table
