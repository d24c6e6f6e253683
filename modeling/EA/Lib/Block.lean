import Mathlib

/-- A block of `count` consecutive pairs that share their first component. -/
structure Block (α : Type*) where
  first : α
  start : Int
  count : Int
deriving DecidableEq

namespace Block

variable {α : Type*}

def values (b : Block α) : Set (α ×ₗ Int) :=
  {v | ∃ i, 0 ≤ i ∧ i < b.count ∧ v = toLex (b.first, b.start + i)}

theorem disjoint_of_first_ne {b c : Block α} (h : b.first ≠ c.first) :
    Disjoint b.values c.values := by
  apply Set.disjoint_left.mpr
  rintro x ⟨i, _, _, rfl⟩ ⟨j, _, _, eq⟩
  exact h (Prod.mk.inj (toLex.injective eq)).1

variable [LinearOrder α]

/-- Every pair of `b` precedes every pair of `c` lexicographically. -/
def Before (b c : Block α) : Prop :=
  ∀ x ∈ b.values, ∀ y ∈ c.values, x < y

/-- `b` lies below the next pair to be issued. -/
def Below (b : Block α) (first : α) (next : Int) : Prop :=
  b.first < first ∨ (b.first = first ∧ b.start + b.count ≤ next)

theorem before_of_below {b c : Block α} (h : b.Below c.first c.start) : b.Before c := by
  rintro x ⟨i, _, hi, rfl⟩ y ⟨j, hj, _, rfl⟩
  apply Prod.Lex.toLex_lt_toLex.mpr
  rcases h with lt | ⟨eq, le⟩
  · exact Or.inl lt
  · exact Or.inr ⟨eq, by dsimp only; omega⟩

theorem Before.disjoint {b c : Block α} (h : b.Before c) : Disjoint b.values c.values :=
  Set.disjoint_left.mpr fun x hb hc => lt_irrefl x (h x hb x hc)

theorem Below.advance {b : Block α} {first : α} {next next' : Int}
    (h : b.Below first next) (le : next ≤ next') : b.Below first next' :=
  h.imp_right fun ⟨eq, hn⟩ => ⟨eq, hn.trans le⟩

/-- Raising the first component puts every issued block below, whatever the
second component restarts from. -/
theorem Below.raise {b : Block α} {first first' : α} {next : Int} (next' : Int)
    (h : b.Below first next) (lt : first < first') : b.Below first' next' := by
  rcases h with hb | ⟨eq, _⟩
  · exact Or.inl (hb.trans lt)
  · exact Or.inl (eq ▸ lt)

theorem below_self_end (first : α) (next count : Int) :
    (Block.mk first next count).Below first (next + count) :=
  Or.inr ⟨rfl, le_rfl⟩

theorem before_concat {bs : List (Block α)} {b : Block α} (h : bs.Pairwise Before)
    (below : ∀ c ∈ bs, c.Below b.first b.start) : (bs ++ [b]).Pairwise Before := by
  apply List.pairwise_append.mpr
  refine ⟨h, List.pairwise_singleton _ _, ?_⟩
  intro c hc d hd
  cases List.mem_singleton.mp hd
  exact before_of_below (below c hc)

end Block
