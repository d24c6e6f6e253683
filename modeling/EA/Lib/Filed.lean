import EA.Lib.Table

universe u v w x y

set_option linter.unusedSectionVars false

/-! Records filed one by one in a shared store: each lies under a name made from
the record itself, in the part of the store that is kept for them. -/

namespace Filed

variable {ι : Type u} {β : Type v} {σ : Type w} {γ : Type x} [Ord σ] [Std.TransOrd σ]
  [Std.LawfulEqOrd σ]

/-- Exactly the held records are filed in the part `mine` of the store. -/
structure Mirrors (key : β → ι) (path : β → σ) (text : β → γ) (mine : σ → Prop)
    (held : ι → Option β) (files : Table σ γ) : Prop where
  keyed : ∀ i b, held i = some b → key b = i
  placed : ∀ i b, held i = some b → mine (path b)
  filed : ∀ p, mine p → ∀ c, files[p]? = some c ↔
    ∃ i b, held i = some b ∧ path b = p ∧ text b = c

/-- The files of a list of records deleted. -/
def removeAll (path : β → σ) (bs : List β) (files : Table σ γ) : Table σ γ :=
  bs.foldl (fun files b => files.erase (path b)) files

theorem removeAll_cons (path : β → σ) (b : β) (bs : List β) (files : Table σ γ) :
    removeAll path (b :: bs) files = removeAll path bs (files.erase (path b)) := rfl

theorem lookup_removeAll_of_none {path : β → σ} {p : σ} (bs : List β) {files : Table σ γ}
    (h : files[p]? = none) : (removeAll path bs files)[p]? = none := by
  induction bs generalizing files with
  | nil => exact h
  | cons b bs ih =>
    rw [removeAll_cons]
    apply ih
    by_cases same : path b = p
    · rw [same, Table.lookup_erase_self]
    · rw [Table.lookup_erase_ne files same, h]

theorem lookup_removeAll_of_mem {path : β → σ} {bs : List β} {p : σ} (mem : ∃ b ∈ bs, path b = p)
    (files : Table σ γ) : (removeAll path bs files)[p]? = none := by
  induction bs generalizing files with
  | nil => simp at mem
  | cons b bs ih =>
    obtain ⟨b', hb', same⟩ := mem
    rw [removeAll_cons]
    rcases List.mem_cons.mp hb' with rfl | later
    · apply lookup_removeAll_of_none
      rw [same, Table.lookup_erase_self]
    · exact ih ⟨b', later, same⟩ _

theorem lookup_removeAll_of_absent {path : β → σ} {bs : List β} {p : σ}
    (absent : ∀ b ∈ bs, path b ≠ p) (files : Table σ γ) :
    (removeAll path bs files)[p]? = files[p]? := by
  induction bs generalizing files with
  | nil => rfl
  | cons b bs ih =>
    have here := absent b (by simp)
    rw [removeAll_cons, ih fun b' hb' => absent b' (List.mem_cons_of_mem _ hb')]
    exact Table.lookup_erase_ne files here

namespace Mirrors

variable {key : β → ι} {path : β → σ} {text : β → γ} {mine : σ → Prop}
  {held held' : ι → Option β} {files : Table σ γ} {b b' : β} {i j : ι}

theorem empty (none_filed : ∀ p, mine p → files[p]? = none) :
    Mirrors key path text mine (fun _ => none) files := by
  refine ⟨fun i b h => by simp at h, fun i b h => by simp at h, fun p hp c => ?_⟩
  simp [none_filed p hp]

theorem congr (h : Mirrors key path text mine held files) (same : ∀ i, held' i = held i) :
    Mirrors key path text mine held' files := by
  have eq : held' = held := funext same
  rw [eq]
  exact h

/-- Where texts tell records apart, no two held records share a file. -/
theorem path_inj (h : Mirrors key path text mine held files) (texts : Function.Injective text)
    (hb : held i = some b) (hb' : held j = some b') (same : path b = path b') : b = b' := by
  have file : files[path b]? = some (text b) := (h.filed _ (h.placed i b hb) _).mpr ⟨i, b, hb, rfl, rfl⟩
  have file' : files[path b]? = some (text b') :=
    (h.filed _ (h.placed i b hb) _).mpr ⟨j, b', hb', same.symm, rfl⟩
  exact texts (Option.some.inj (file.symm.trans file'))

/-- A record is added under a name that no held record uses. -/
theorem put (h : Mirrors key path text mine held files) (own : mine (path b))
    (free : held (key b) = none) (apart : ∀ i b', held i = some b' → path b' ≠ path b)
    (self : held' (key b) = some b) (other : ∀ i, key b ≠ i → held' i = held i) :
    Mirrors key path text mine held' (files.insert (path b) (text b)) := by
  have cases_held : ∀ i b', held' i = some b' → (key b = i ∧ b' = b) ∨ held i = some b' := by
    intro i b' hb'
    by_cases same : key b = i
    · subst i
      exact Or.inl ⟨rfl, Option.some.inj (hb'.symm.trans self)⟩
    · exact Or.inr (by rw [← other i same, hb'])
  have old : ∀ i b', held i = some b' → held' i = some b' := by
    intro i b' hb'
    rw [other i, hb']
    rintro rfl
    simp [free] at hb'
  refine ⟨?_, ?_, ?_⟩
  · intro i b' hb'
    rcases cases_held i b' hb' with ⟨same, rfl⟩ | hb'
    · exact same
    · exact h.keyed i b' hb'
  · intro i b' hb'
    rcases cases_held i b' hb' with ⟨_, rfl⟩ | hb'
    · exact own
    · exact h.placed i b' hb'
  · intro p hp c
    by_cases same : path b = p
    · subst p
      rw [Table.lookup_insert_self]
      constructor
      · intro hc
        exact ⟨key b, b, self, rfl, Option.some.inj hc⟩
      · rintro ⟨i, b', hb', samePath, rfl⟩
        rcases cases_held i b' hb' with ⟨_, rfl⟩ | hb'
        · rfl
        · exact absurd samePath (apart i b' hb')
    · rw [Table.lookup_insert_ne _ _ same, h.filed p hp c]
      constructor
      · intro ⟨i, b', hb', at_p, hc⟩
        exact ⟨i, b', old i b' hb', at_p, hc⟩
      · intro ⟨i, b', hb', at_p, hc⟩
        rcases cases_held i b' hb' with ⟨_, rfl⟩ | hb'
        · exact absurd at_p same
        · exact ⟨i, b', hb', at_p, hc⟩

/-- Held records are dropped together with their files. -/
theorem remove (h : Mirrors key path text mine held files) (texts : Function.Injective text)
    {bs : List β} (all : ∀ b ∈ bs, ∃ i, held i = some b) (gone : ∀ b ∈ bs, held' (key b) = none)
    (other : ∀ i, (∀ b ∈ bs, key b ≠ i) → held' i = held i) :
    Mirrors key path text mine held' (removeAll path bs files) := by
  have kept : ∀ i b', held' i = some b' → held i = some b' ∧ ∀ b ∈ bs, key b ≠ i := by
    intro i b' hb'
    have apart : ∀ b ∈ bs, key b ≠ i := by
      rintro b hb rfl
      simp [gone b hb] at hb'
    exact ⟨by rw [← other i apart, hb'], apart⟩
  refine ⟨fun i b' hb' => h.keyed i b' (kept i b' hb').1,
    fun i b' hb' => h.placed i b' (kept i b' hb').1, fun p hp c => ?_⟩
  by_cases deleted : ∃ b ∈ bs, path b = p
  · rw [lookup_removeAll_of_mem deleted]
    constructor
    · intro hc
      simp at hc
    · intro ⟨i, b', hb', at_p, _⟩
      obtain ⟨hb', apart⟩ := kept i b' hb'
      obtain ⟨b, hb, here⟩ := deleted
      obtain ⟨j, hj⟩ := all b hb
      have eq : b = b' := h.path_inj texts hj hb' (here.trans at_p.symm)
      subst b
      exact absurd (h.keyed i b' hb') (apart b' hb)
  · have absent : ∀ b ∈ bs, path b ≠ p := fun b hb here => deleted ⟨b, hb, here⟩
    rw [lookup_removeAll_of_absent absent, h.filed p hp c]
    constructor
    · intro ⟨i, b', hb', at_p, hc⟩
      refine ⟨i, b', ?_, at_p, hc⟩
      rw [other i, hb']
      intro b hb same
      obtain ⟨j, hj⟩ := all b hb
      have held_here : held i = some b := by rw [← same, h.keyed j b hj, hj]
      have eq : b = b' := Option.some.inj (held_here.symm.trans hb')
      exact absent b hb (by rw [eq, at_p])
    · intro ⟨i, b', hb', at_p, hc⟩
      exact ⟨i, b', (kept i b' hb').1, at_p, hc⟩

/-- The records behind the texts that a listing of the files gives. -/
theorem records (h : Mirrors key path text mine held files) (texts : Function.Injective text)
    {cs : List γ} (listing : ∀ c, c ∈ cs ↔ ∃ p, mine p ∧ files[p]? = some c) :
    ∃ bs : List β, bs.map text = cs ∧ ∀ b, b ∈ bs ↔ ∃ i, held i = some b := by
  have held_of_mem : ∀ c ∈ cs, ∃ b, (∃ i, held i = some b) ∧ text b = c := by
    intro c hc
    obtain ⟨p, hp, file⟩ := (listing c).mp hc
    obtain ⟨i, b, hb, _, eq⟩ := (h.filed p hp c).mp file
    exact ⟨b, ⟨i, hb⟩, eq⟩
  have exact_texts : ∃ bs : List β, bs.map text = cs := by
    clear listing
    induction cs with
    | nil => exact ⟨[], rfl⟩
    | cons c cs ih =>
      obtain ⟨bs, hbs⟩ := ih fun c hc => held_of_mem c (List.mem_cons_of_mem _ hc)
      obtain ⟨b, _, eq⟩ := held_of_mem c (by simp)
      exact ⟨b :: bs, by rw [List.map_cons, eq, hbs]⟩
  obtain ⟨bs, hbs⟩ := exact_texts
  refine ⟨bs, hbs, fun b => ?_⟩
  constructor
  · intro hb
    have mem : text b ∈ cs := by
      rw [← hbs]
      exact List.mem_map_of_mem hb
    obtain ⟨b', found, eq⟩ := held_of_mem _ mem
    rw [← texts eq]
    exact found
  · intro ⟨i, hb⟩
    have file : files[path b]? = some (text b) :=
      (h.filed _ (h.placed i b hb) _).mpr ⟨i, b, hb, rfl, rfl⟩
    have mem : text b ∈ bs.map text := by
      rw [hbs]
      exact (listing _).mpr ⟨path b, h.placed i b hb, file⟩
    obtain ⟨b', hb', eq⟩ := List.mem_map.mp mem
    rw [← texts eq]
    exact hb'

/-- Putting the filed records back, in any order, gives what was held. -/
theorem rebuilt {τ : Type y} (h : Mirrors key path text mine held files) (look : τ → ι → Option β)
    (put : τ → β → τ) (offKey : ∀ s b i, key b ≠ i → look (put s b) i = look s i)
    (onKey : ∀ s b, look (put s b) (key b) = some b) {s : τ} (start : ∀ i, look s i = none)
    {bs : List β} (exactly : ∀ b, b ∈ bs ↔ ∃ i, held i = some b) (i : ι) :
    look (bs.foldl put s) i = held i := by
  cases hi : held i with
  | some b =>
    have self : ∀ s b, look (put s b) (key b) = some (id b) := onKey
    refine Fold.lookup_of_found look key offKey self
      ⟨b, (exactly b).mpr ⟨i, hi⟩, h.keyed i b hi⟩ ?_ s
    intro b' hb' same
    obtain ⟨j, hj⟩ := (exactly b').mp hb'
    have at_i : held i = some b' := by rw [← same, h.keyed j b' hj, hj]
    exact Option.some.inj (at_i.symm.trans hi)
  | none =>
    have absent : ∀ b ∈ bs, key b ≠ i := by
      rintro b hb rfl
      obtain ⟨j, hj⟩ := (exactly b).mp hb
      rw [h.keyed j b hj, hj] at hi
      simp at hi
    rw [Fold.lookup_of_absent look key offKey absent, start]

end Mirrors

end Filed
