import Mathlib

universe u v

/-! Lists of entries that are found by a key, the first one where keys repeat. -/

namespace Keyed

variable {α : Type u} {κ : Type v} [DecidableEq κ] (key : α → κ)

/-- The first entry of the new one's key is changed; without one the new entry is appended. -/
def upsert (change : α → α → α) (new : α) : List α → List α
  | [] => [new]
  | a :: l => if key a = key new then change new a :: l else a :: upsert change new l

/-- Every entry of the given one's key is changed or removed. -/
def amend (change : α → α → Option α) (new : α) (l : List α) : List α :=
  l.filterMap fun a => if key a = key new then change new a else some a

def upsertAll (change : α → α → α) (news l : List α) : List α :=
  news.foldl (fun l new => upsert key change new l) l

def amendAll (change : α → α → Option α) (news l : List α) : List α :=
  news.foldl (fun l new => amend key change new l) l

def entry (k : κ) (l : List α) : Option α := l.find? fun a => key a = k

variable {key}

theorem entry_cons_self (a : α) (l : List α) : entry key (key a) (a :: l) = some a := by
  simp [entry]

theorem entry_cons_ne {a : α} {k : κ} (ne : key a ≠ k) (l : List α) :
    entry key k (a :: l) = entry key k l := by
  simp [entry, ne]

theorem entry_eq_none {k : κ} {l : List α} (absent : k ∉ l.map key) : entry key k l = none := by
  refine List.find?_eq_none.mpr fun a ha => ?_
  have ne : key a ≠ k := fun eq => absent (List.mem_map.mpr ⟨a, ha, eq⟩)
  simpa using ne

section Upsert

variable {change : α → α → α} (same : ∀ new a, key (change new a) = key a)

include same

theorem keys_upsert (new : α) (l : List α) :
    (upsert key change new l).map key =
      if key new ∈ l.map key then l.map key else l.map key ++ [key new] := by
  induction l with
  | nil => simp [upsert]
  | cons a l ih =>
    by_cases here : key a = key new
    · simp [upsert, here, same]
    · have other : ¬ key new = key a := fun eq => here eq.symm
      simp only [upsert, if_neg here, List.map_cons, ih, List.mem_cons, other, false_or]
      split <;> rfl

theorem nodup_upsert (new : α) {l : List α} (h : (l.map key).Nodup) :
    ((upsert key change new l).map key).Nodup := by
  rw [keys_upsert same]
  split
  next => exact h
  next absent =>
    refine List.nodup_append.mpr ⟨h, List.nodup_singleton _, ?_⟩
    intro k hk k' hk' eq
    rw [List.mem_singleton.mp hk'] at eq
    exact absent (eq ▸ hk)

theorem entry_upsert (new : α) (l : List α) (k : κ) :
    entry key k (upsert key change new l) =
      if key new = k then some ((entry key k l).elim new (change new)) else entry key k l := by
  induction l with
  | nil => by_cases here : key new = k <;> simp [upsert, entry, here]
  | cons a l ih =>
    by_cases first : key a = key new
    · rw [upsert, if_pos first]
      by_cases here : key new = k
      · have changed : key (change new a) = k := (same new a).trans (first.trans here)
        have old : key a = k := first.trans here
        simp [entry, changed, old, here]
      · have changed : key (change new a) ≠ k := by rwa [same, first]
        have old : key a ≠ k := by rwa [first]
        rw [if_neg here, entry_cons_ne changed, entry_cons_ne old]
    · rw [upsert, if_neg first]
      by_cases old : key a = k
      · have here : key new ≠ k := fun eq => first (old.trans eq.symm)
        simp [entry, old, here]
      · rw [entry_cons_ne old, entry_cons_ne old]
        exact ih

/-- The entries of other keys stay, in their order. -/
theorem filter_upsert {p : κ → Bool} {new : α} (out : p (key new) = false) (l : List α) :
    (upsert key change new l).filter (fun a => p (key a)) = l.filter fun a => p (key a) := by
  induction l with
  | nil => simp [upsert, out]
  | cons a l ih =>
    by_cases first : key a = key new
    · have changed : p (key (change new a)) = false := by rw [same, first, out]
      have old : p (key a) = false := by rw [first, out]
      simp [upsert, first, changed, out]
    · simp only [upsert, if_neg first, List.filter_cons, ih]

theorem mem_keys_upsertAll {news l : List α} {k : κ}
    (h : k ∈ (upsertAll key change news l).map key) : k ∈ l.map key ∨ k ∈ news.map key := by
  induction news generalizing l with
  | nil => exact Or.inl h
  | cons new news ih =>
    rcases ih h with old | later
    · rw [keys_upsert same] at old
      split at old
      next => exact Or.inl old
      next =>
        rcases List.mem_append.mp old with old | here
        · exact Or.inl old
        · rw [List.mem_singleton.mp here]
          exact Or.inr (by simp)
    · exact Or.inr (List.mem_cons_of_mem _ later)

theorem nodup_upsertAll (news : List α) {l : List α} (h : (l.map key).Nodup) :
    ((upsertAll key change news l).map key).Nodup := by
  induction news generalizing l with
  | nil => exact h
  | cons new news ih => exact ih (nodup_upsert same new h)

theorem filter_upsertAll {p : κ → Bool} {news : List α} (out : ∀ new ∈ news, p (key new) = false)
    (l : List α) :
    (upsertAll key change news l).filter (fun a => p (key a)) = l.filter fun a => p (key a) := by
  induction news generalizing l with
  | nil => rfl
  | cons new news ih =>
    obtain ⟨first, rest⟩ := List.forall_mem_cons.mp out
    exact (ih rest _).trans (filter_upsert same first l)

/-- Where a change raises the level of an entry to the new one's, an entry ends with
the maximum of its own level and of all that were given for its key. -/
theorem level_upsertAll {level : α → Nat}
    (raises : ∀ new ∈ news, ∀ a, level (change new a) = max (level a) (level new))
    (l : List α) (k : κ) :
    (entry key k (upsertAll key change news l)).map level =
      (((entry key k l).map level).toList ++
        (news.filter fun new => key new = k).map level).max? := by
  induction news generalizing l with
  | nil =>
    cases old : entry key k l with
    | none => simp [upsertAll, old]
    | some a => simp [upsertAll, old]
  | cons new news ih =>
    obtain ⟨first, rest⟩ := List.forall_mem_cons.mp raises
    have step := ih rest (upsert key change new l)
    rw [entry_upsert same] at step
    refine step.trans ?_
    by_cases here : key new = k
    · cases old : entry key k l with
      | none => simp [here]
      | some a =>
        simp only [here, if_true, Option.elim_some, Option.map_some, Option.toList_some, first,
          decide_true, List.filter_cons_of_pos, List.map_cons, List.singleton_append,
          List.max?_cons]
        cases ((news.filter fun new => key new = k).map level).max? with
        | none => rfl
        | some m => exact congrArg some (Nat.max_assoc _ _ _)
    · simp [here]

end Upsert

section Amend

variable {change : α → α → Option α}
  (same : ∀ new a b, key a = key new → change new a = some b → key b = key a)

include same

theorem keys_amend (new : α) (l : List α) :
    ((amend key change new l).map key).Sublist (l.map key) := by
  induction l with
  | nil => exact List.Sublist.refl _
  | cons a l ih =>
    unfold amend at ih ⊢
    rw [List.filterMap_cons, List.map_cons]
    split
    next => exact ih.cons _
    next b eq =>
      have kept : key b = key a := by
        split at eq
        next here => exact same new a b here eq
        next => rw [Option.some.inj eq]
      rw [List.map_cons, kept]
      exact ih.cons_cons _

theorem entry_amend (new : α) {l : List α} (nodup : (l.map key).Nodup) (k : κ) :
    entry key k (amend key change new l) =
      if key new = k then (entry key k l).bind (change new) else entry key k l := by
  induction l with
  | nil => by_cases here : key new = k <;> simp [amend, entry, here]
  | cons a l ih =>
    obtain ⟨fresh, rest⟩ := List.nodup_cons.mp nodup
    have tail := ih rest
    by_cases first : key a = key new
    · have unfolded : amend key change new (a :: l) =
          (change new a).toList ++ amend key change new l := by
        unfold amend
        rw [List.filterMap_cons, if_pos first]
        cases change new a <;> rfl
      rw [unfolded]
      by_cases here : key new = k
      · -- the key does not come again, so nothing later takes the removed entry's place
        have old : key a = k := first.trans here
        have none : entry key k l = none := entry_eq_none (by rwa [← old])
        rw [if_pos here, none] at tail
        subst k
        rw [if_pos rfl, ← first, entry_cons_self, Option.bind_some]
        rw [← first] at tail
        cases changed : change new a with
        | none => exact tail
        | some b =>
          have kept := same new a b first changed
          rw [← kept]
          exact entry_cons_self b _
      · rw [if_neg here] at tail ⊢
        have old : key a ≠ k := by rwa [first]
        rw [entry_cons_ne old, ← tail]
        cases changed : change new a with
        | none => rfl
        | some b =>
          have kept := same new a b first changed
          exact entry_cons_ne (by rwa [kept]) _
    · have unfolded : amend key change new (a :: l) = a :: amend key change new l := by
        unfold amend
        rw [List.filterMap_cons, if_neg first]
      rw [unfolded]
      by_cases old : key a = k
      · have here : key new ≠ k := fun eq => first (old.trans eq.symm)
        subst k
        rw [if_neg here, entry_cons_self, entry_cons_self]
      · rw [entry_cons_ne old, entry_cons_ne old]
        exact tail

theorem filter_amend {p : κ → Bool} {new : α} (out : p (key new) = false) (l : List α) :
    (amend key change new l).filter (fun a => p (key a)) = l.filter fun a => p (key a) := by
  induction l with
  | nil => rfl
  | cons a l ih =>
    unfold amend at ih ⊢
    by_cases first : key a = key new
    · have old : p (key a) = false := by rw [first, out]
      rw [List.filterMap_cons, if_pos first]
      cases changed : change new a with
      | none => simp [ih, old]
      | some b =>
        have kept := same new a b first changed
        simp [ih, old, kept]
    · rw [List.filterMap_cons, if_neg first]
      simp only [List.filter_cons, ih]

theorem keys_amendAll (news l : List α) :
    ((amendAll key change news l).map key).Sublist (l.map key) := by
  induction news generalizing l with
  | nil => exact List.Sublist.refl _
  | cons new news ih => exact (ih _).trans (keys_amend same new l)

theorem nodup_amendAll (news : List α) {l : List α} (h : (l.map key).Nodup) :
    ((amendAll key change news l).map key).Nodup :=
  (keys_amendAll same news l).nodup h

theorem filter_amendAll {p : κ → Bool} {news : List α} (out : ∀ new ∈ news, p (key new) = false)
    (l : List α) :
    (amendAll key change news l).filter (fun a => p (key a)) = l.filter fun a => p (key a) := by
  induction news generalizing l with
  | nil => rfl
  | cons new news ih =>
    obtain ⟨first, rest⟩ := List.forall_mem_cons.mp out
    exact (ih rest _).trans (filter_amend same first l)

/-- Where a change lowers the level or removes the entry, a named entry that is left
is strictly lower. -/
theorem level_amendAll {level : α → Nat}
    (lowers : ∀ new a b, change new a = some b → level b < level a) {news l : List α}
    (nodup : (l.map key).Nodup) {k : κ} {b : α}
    (left : entry key k (amendAll key change news l) = some b) :
    ∃ a, entry key k l = some a ∧ level b ≤ level a ∧
      (k ∈ news.map key → level b < level a) := by
  induction news generalizing l with
  | nil => exact ⟨b, left, Nat.le_refl _, by simp⟩
  | cons new news ih =>
    have nodup' := (keys_amend same new l).nodup nodup
    obtain ⟨c, mid, le, lt⟩ := ih nodup' left
    rw [entry_amend same new nodup] at mid
    split at mid
    next here =>
      obtain ⟨a, found, changed⟩ := Option.bind_eq_some_iff.mp mid
      have less := lowers new a c changed
      exact ⟨a, found, by omega, fun _ => by omega⟩
    next other =>
      refine ⟨c, mid, le, fun named => lt ?_⟩
      rcases List.mem_cons.mp named with eq | later
      · exact absurd eq.symm other
      · exact later

end Amend

/-- Each entry has the maximum of its old level and of the levels given for its key,
the others are as before. -/
structure Raised (key : α → κ) (level : α → Nat) (news old l : List α) : Prop where
  unique : (l.map key).Nodup
  levels : ∀ k, (entry key k l).map level =
    (((entry key k old).map level).toList ++ (news.filter fun new => key new = k).map level).max?
  others : (l.filter fun a => key a ∉ news.map key) = old.filter fun a => key a ∉ news.map key

/-- Each entry that is named is gone or strictly lower, no entry is new, the others
are as before. -/
structure Lowered (key : α → κ) (level : α → Nat) (named old l : List α) : Prop where
  unique : (l.map key).Nodup
  within : (l.map key).Sublist (old.map key)
  levels : ∀ k ∈ named.map key, ∀ b, entry key k l = some b →
    ∃ a, entry key k old = some a ∧ level b < level a
  others : (l.filter fun a => key a ∉ named.map key) = old.filter fun a => key a ∉ named.map key

theorem named_out (news : List α) : ∀ new ∈ news, decide (key new ∉ news.map key) = false := by
  intro new hnew
  simpa using ⟨new, hnew, rfl⟩

theorem raised_upsertAll {change : α → α → α} (same : ∀ new a, key (change new a) = key a)
    {level : α → Nat} {news old : List α}
    (raises : ∀ new ∈ news, ∀ a, level (change new a) = max (level a) (level new))
    (unique : (old.map key).Nodup) : Raised key level news old (upsertAll key change news old) where
  unique := nodup_upsertAll same news unique
  levels := level_upsertAll same raises old
  others := filter_upsertAll same (p := fun k => k ∉ news.map key) (named_out news) old

theorem lowered_amendAll {change : α → α → Option α}
    (same : ∀ new a b, key a = key new → change new a = some b → key b = key a)
    {level : α → Nat} (lowers : ∀ new a b, change new a = some b → level b < level a)
    {named old : List α} (unique : (old.map key).Nodup) :
    Lowered key level named old (amendAll key change named old) where
  unique := nodup_amendAll same named unique
  within := keys_amendAll same named old
  levels k hk b left := by
    obtain ⟨a, found, _, lt⟩ := level_amendAll same lowers unique left
    exact ⟨a, found, lt hk⟩
  others := filter_amendAll same (p := fun k => k ∉ named.map key) (named_out named) old

end Keyed
