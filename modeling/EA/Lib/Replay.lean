import EA.Lib.Mirror

universe u v w x y z

set_option linter.unusedSectionVars false

/-! Rebuilding a state from the records in a key range of a table. -/

namespace Replay

variable {κ : Type u} {γ : Type v} {ρ : Type w} {σ : Type x} [Ord κ] [Std.TransOrd κ]
  [Std.LawfulEqOrd κ]

/-- The list holds exactly the records in the range. -/
def Lists (entry : ρ → κ × γ) (range : κ → Bool) (rs : List ρ) (m : Table κ γ) : Prop :=
  ∀ k v, (∃ r ∈ rs, entry r = (k, v)) ↔ m[k]? = some v ∧ range k = true

theorem Lists.mem_iff {entry : ρ → κ × γ} {range : κ → Bool} {rs : List ρ} {m : Table κ γ}
    (h : Lists entry range rs m) (inj : Function.Injective entry) {r : ρ}
    (inside : range (entry r).1 = true) : r ∈ rs ↔ m[(entry r).1]? = some (entry r).2 := by
  constructor
  · intro hr
    exact ((h _ _).mp ⟨r, hr, rfl⟩).1
  · intro stored
    obtain ⟨r', hr', eq⟩ := (h _ _).mpr ⟨stored, inside⟩
    cases inj eq
    exact hr'

theorem foldlM_map {entry : ρ → κ × γ} {load : σ → κ × γ → Option σ} {read : σ → ρ → σ}
    (reads : ∀ s r, load s (entry r) = some (read s r)) (rs : List ρ) (s : σ) :
    (rs.map entry).foldlM load s = some (rs.foldl read s) := by
  induction rs generalizing s with
  | nil => rfl
  | cons r rs ih =>
    rw [List.map_cons, List.foldlM_cons, reads, List.foldl_cons]
    exact ih (read s r)

/-- A range that holds nothing but records loads, and what is loaded depends on
the records only, whatever it is loaded into. -/
theorem scan_foldlM_all {entry : ρ → κ × γ} {range : κ → Bool} {m : Table κ γ}
    {load : σ → κ × γ → Option σ} {read : σ → ρ → σ}
    (reads : ∀ s r, load s (entry r) = some (read s r))
    (recorded : ∀ k v, range k = true → m[k]? = some v → ∃ r, entry r = (k, v)) :
    ∃ rs, Lists entry range rs m ∧
      ∀ s, (Table.scan range m).foldlM load s = some (rs.foldl read s) := by
  have typed : ∀ e ∈ Table.scan range m, e ∈ Set.range entry := by
    intro ⟨k, v⟩ he
    obtain ⟨hv, here⟩ := Table.mem_scan.mp he
    exact recorded k v here hv
  have listed : Table.scan range m ∈ Set.range (List.map entry) := by
    rw [Set.range_list_map]
    exact typed
  obtain ⟨rs, hrs⟩ := listed
  refine ⟨rs, ?_, ?_⟩
  · intro k v
    rw [← Table.mem_scan, ← List.mem_map]
    exact iff_of_eq (congrArg ((k, v) ∈ ·) hrs)
  · rw [← hrs]
    exact foldlM_map reads rs

theorem scan_foldlM {entry : ρ → κ × γ} {range : κ → Bool} {m : Table κ γ}
    {load : σ → κ × γ → Option σ} {read : σ → ρ → σ}
    (reads : ∀ s r, load s (entry r) = some (read s r))
    (recorded : ∀ k v, range k = true → m[k]? = some v → ∃ r, entry r = (k, v)) (s : σ) :
    ∃ rs, Lists entry range rs m ∧ (Table.scan range m).foldlM load s = some (rs.foldl read s) := by
  obtain ⟨rs, lists, loaded⟩ := scan_foldlM_all reads recorded
  exact ⟨rs, lists, loaded s⟩

section Mirrored

variable {ι : Type y} {β : Type z} [Ord ι] [Std.TransOrd ι] [Std.LawfulEqOrd ι] {K : ι → κ}
  {V : β → γ} {m : Table ι β} {store : Table κ γ} {range : κ → Bool}

/-- The range that holds the mirror of a table and nothing else lists the table. -/
theorem scan_mirror (injK : Function.Injective K) (injV : Function.Injective V)
    (h : Mirror K V m store) (inside : ∀ i, range (K i) = true)
    (recorded : ∀ k v, range k = true → store[k]? = some v → ∃ i, K i = k)
    {load : σ → κ × γ → Option σ} {read : σ → ι × β → σ}
    (reads : ∀ s e, load s (K e.1, V e.2) = some (read s e)) (s : σ) :
    ∃ rs : List (ι × β), (∀ e, e ∈ rs ↔ m[e.1]? = some e.2) ∧
      (Table.scan range store).foldlM load s = some (rs.foldl read s) := by
  let entry : ι × β → κ × γ := fun e => (K e.1, V e.2)
  have distinct : Function.Injective entry := by
    intro a b eq
    obtain ⟨key, value⟩ := Prod.mk.inj eq
    exact Prod.ext (injK key) (injV value)
  have typed : ∀ k v, range k = true → store[k]? = some v → ∃ e, entry e = (k, v) := by
    intro k v here hv
    obtain ⟨i, rfl⟩ := recorded k v here hv
    obtain ⟨b, _, eq⟩ := h.lookup_table hv
    exact ⟨(i, b), by rw [← eq]⟩
  have loads : ∀ s e, load s (entry e) = some (read s e) := reads
  obtain ⟨rs, lists, loaded⟩ := scan_foldlM loads typed s
  refine ⟨rs, ?_, loaded⟩
  intro e
  have stored : e ∈ rs ↔ store[K e.1]? = some (V e.2) := lists.mem_iff distinct (inside e.1)
  rw [stored]
  constructor
  · intro here
    obtain ⟨b, found, eq⟩ := h.lookup_table here
    rw [found, injV eq]
  · exact h.lookup_store

end Mirrored

end Replay
