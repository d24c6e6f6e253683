import EA.Lib.Table

universe u v w x

/-- A table kept in memory is mirrored in a store when the store holds, under
the keys made from the table's keys, exactly the table's values. -/
def Mirror {κ : Type u} {β : Type v} {σ : Type w} {γ : Type x} [Ord κ] [Ord σ]
    [Std.TransOrd κ] [Std.TransOrd σ] (K : κ → σ) (V : β → γ) (m : Table κ β) (s : Table σ γ) :
    Prop :=
  ∀ k, s[K k]? = (m[k]?).map V

set_option linter.unusedSectionVars false

namespace Mirror

variable {κ : Type u} {β : Type v} {σ : Type w} {γ : Type x}
  [Ord κ] [Std.TransOrd κ] [Std.LawfulEqOrd κ] [Ord σ] [Std.TransOrd σ] [Std.LawfulEqOrd σ]
  {K : κ → σ} {V : β → γ} {m : Table κ β} {s s' : Table σ γ}

theorem empty : Mirror K V (∅ : Table κ β) (∅ : Table σ γ) := by
  intro k
  simp

/-- Writes outside the range of the key constructor do not matter. -/
theorem frame (h : Mirror K V m s) (same : ∀ k, s'[K k]? = s[K k]?) : Mirror K V m s' :=
  fun k => (same k).trans (h k)

theorem insert (inj : Function.Injective K) (h : Mirror K V m s) (k : κ) (v : β) :
    Mirror K V (m.insert k v) (s.insert (K k) (V v)) := by
  intro j
  by_cases same : k = j
  · subst j
    rw [Table.lookup_insert_self, Table.lookup_insert_self]
    rfl
  · rw [Table.lookup_insert_ne s _ fun eq => same (inj eq), Table.lookup_insert_ne m _ same]
    exact h j

theorem erase (inj : Function.Injective K) (h : Mirror K V m s) (k : κ) :
    Mirror K V (m.erase k) (s.erase (K k)) := by
  intro j
  by_cases same : k = j
  · subst j
    rw [Table.lookup_erase_self, Table.lookup_erase_self]
    rfl
  · rw [Table.lookup_erase_ne s fun eq => same (inj eq), Table.lookup_erase_ne m same]
    exact h j

theorem lookup_store (h : Mirror K V m s) {k : κ} {v : β} (hv : m[k]? = some v) :
    s[K k]? = some (V v) := by
  rw [h k, hv]
  rfl

theorem lookup_table (h : Mirror K V m s) {k : κ} {c : γ} (hc : s[K k]? = some c) :
    ∃ v, m[k]? = some v ∧ V v = c := by
  rw [h k] at hc
  exact Option.map_eq_some_iff.mp hc

end Mirror
