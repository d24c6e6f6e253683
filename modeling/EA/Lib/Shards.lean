import Mathlib

universe u v w

/-! A map split over several ones, with each key in the one that is its place. -/

namespace Shards

variable {ι : Type u} {κ : Type v} {β : Type w} [DecidableEq κ] [Hashable κ]

section Entry

variable {m m' : Std.HashMap κ β} {key : κ} {entry : Option β}

/-- `m'` has `entry` under the key, and is `m` elsewhere. -/
structure Becomes (m : Std.HashMap κ β) (key : κ) (entry : Option β)
    (m' : Std.HashMap κ β) : Prop where
  here : m'[key]? = entry
  others : ∀ k : κ, k ≠ key → m'[k]? = m[k]?

theorem becomes_of_lookup (found : m[key]? = entry) : Becomes m key entry m :=
  ⟨found, fun _ _ => rfl⟩

theorem Becomes.trans {m'' : Std.HashMap κ β} {entry' : Option β} (h : Becomes m key entry m')
    (h' : Becomes m' key entry' m'') : Becomes m key entry' m'' :=
  ⟨h'.here, fun k ne => (h'.others k ne).trans (h.others k ne)⟩

theorem Becomes.insert (h : Becomes m key entry m') (value : β) :
    Becomes m key (some value) (m'.insert key value) := by
  refine ⟨Std.HashMap.getElem?_insert_self, fun k ne => ?_⟩
  have other : (key == k) = false := beq_false_of_ne (Ne.symm ne)
  rw [Std.HashMap.getElem?_insert, other, ← h.others k ne]
  rfl

theorem Becomes.erase (h : Becomes m key entry m') : Becomes m key none (m'.erase key) := by
  refine ⟨Std.HashMap.getElem?_erase_self, fun k ne => ?_⟩
  have other : (key == k) = false := beq_false_of_ne (Ne.symm ne)
  rw [Std.HashMap.getElem?_erase, other, ← h.others k ne]
  rfl

theorem becomes_insert (m : Std.HashMap κ β) (key : κ) (value : β) :
    Becomes m key (some value) (m.insert key value) := (becomes_of_lookup rfl).insert value

theorem becomes_erase (m : Std.HashMap κ β) (key : κ) : Becomes m key none (m.erase key) :=
  (becomes_of_lookup rfl).erase

theorem becomes_insertIfNew (m : Std.HashMap κ β) (key : κ) (value : β) :
    Becomes m key (some (m[key]?.getD value)) (m.insertIfNew key value) := by
  refine ⟨?_, fun k ne => ?_⟩
  · rw [Std.HashMap.getElem?_insertIfNew]
    cases found : m[key]? with
    | none => simp [Std.HashMap.mem_iff_isSome_getElem?, found]
    | some old => simp [Std.HashMap.mem_iff_isSome_getElem?, found]
  · rw [Std.HashMap.getElem?_insertIfNew, if_neg]
    rintro ⟨same, _⟩
    exact ne (eq_of_beq same).symm

theorem becomes_alter (m : Std.HashMap κ β) (key : κ) (f : Option β → Option β) :
    Becomes m key (f m[key]?) (m.alter key f) := by
  refine ⟨Std.HashMap.getElem?_alter_self, fun k ne => ?_⟩
  have other : (key == k) = false := beq_false_of_ne (Ne.symm ne)
  rw [Std.HashMap.getElem?_alter, other]
  rfl

end Entry

variable {place : κ → ι} {shards : ι → Std.HashMap κ β} {whole whole' : Std.HashMap κ β}

/-- The shards hold together what one whole map holds, and no key out of its place. -/
structure Holds (place : κ → ι) (shards : ι → Std.HashMap κ β)
    (whole : Std.HashMap κ β) : Prop where
  placed : ∀ i key, key ∈ shards i → place key = i
  contents : ∀ key : κ, (shards (place key))[key]? = whole[key]?

theorem holds_empty (place : κ → ι) : Holds place (fun _ => (∅ : Std.HashMap κ β)) ∅ :=
  ⟨fun _ _ mem => by simp at mem, fun _ => rfl⟩

/-- The same entry changes in the shard of its key and in the whole map. -/
theorem Holds.update [DecidableEq ι] (h : Holds place shards whole) {key : κ}
    {entry : Option β} {shard : Std.HashMap κ β}
    (here : Becomes (shards (place key)) key entry shard) (there : Becomes whole key entry whole') :
    Holds place (Function.update shards (place key) shard) whole' := by
  constructor
  · intro i k mem
    by_cases at_place : i = place key
    · subst i
      rw [Function.update_self] at mem
      by_cases same : k = key
      · rw [same]
      · rw [Std.HashMap.mem_iff_isSome_getElem?, here.others k same,
          ← Std.HashMap.mem_iff_isSome_getElem?] at mem
        exact h.placed _ k mem
    · rw [Function.update_of_ne at_place] at mem
      exact h.placed i k mem
  · intro k
    by_cases same : k = key
    · subst k
      rw [Function.update_self, here.here, there.here]
    · rw [there.others k same, ← h.contents k]
      by_cases at_place : place k = place key
      · rw [at_place, Function.update_self, here.others k same]
      · rw [Function.update_of_ne at_place]

theorem Holds.lookup_of_shard (h : Holds place shards whole) {i : ι} {key : κ} {value : β}
    (found : (shards i)[key]? = some value) : place key = i ∧ whole[key]? = some value := by
  have mem : key ∈ shards i := by simp [Std.HashMap.mem_iff_isSome_getElem?, found]
  have here := h.placed i key mem
  rw [← h.contents key, here]
  exact ⟨rfl, found⟩

/-- All entries, shard by shard. -/
def entries (is : List ι) (shards : ι → Std.HashMap κ β) : List (κ × β) :=
  is.flatMap fun i => (shards i).toList

theorem entries_cons (i : ι) (is : List ι) (shards : ι → Std.HashMap κ β) :
    entries (i :: is) shards = (shards i).toList ++ entries is shards := List.flatMap_cons ..

theorem entries_update [DecidableEq ι] {is : List ι} {i : ι} (absent : i ∉ is)
    (shards : ι → Std.HashMap κ β) (shard : Std.HashMap κ β) :
    entries is (Function.update shards i shard) = entries is shards := by
  apply List.flatMap_congr
  intro j mem
  have ne : j ≠ i := fun same => absent (same ▸ mem)
  rw [Function.update_of_ne ne]

theorem length_entries (is : List ι) (shards : ι → Std.HashMap κ β) :
    (entries is shards).length = (is.map fun i => (shards i).size).sum := by
  simp only [entries, List.length_flatMap, Std.HashMap.length_toList]

theorem nodup_toList (m : Std.HashMap κ β) : m.toList.Nodup :=
  Std.HashMap.distinct_keys_toList.imp fun apart eq => by simp [eq] at apart

theorem Holds.nodup_entries (h : Holds place shards whole) {is : List ι} (nodup : is.Nodup) :
    (entries is shards).Nodup := by
  refine List.nodup_flatMap.mpr ⟨fun i _ => nodup_toList (shards i), nodup.imp fun apart => ?_⟩
  rintro ⟨key, value⟩ mem mem'
  have here := (h.lookup_of_shard (Std.HashMap.mem_toList_iff_getElem?_eq_some.mp mem)).1
  have there := (h.lookup_of_shard (Std.HashMap.mem_toList_iff_getElem?_eq_some.mp mem')).1
  exact apart (here.symm.trans there)

/-- The entries of all shards are those of the whole map, each once. -/
theorem Holds.entries_perm (h : Holds place shards whole) {is : List ι} (nodup : is.Nodup)
    (complete : ∀ i, i ∈ is) : (entries is shards).Perm whole.toList := by
  have distinct := h.nodup_entries nodup
  refine (List.perm_ext_iff_of_nodup distinct (nodup_toList whole)).mpr fun e => ?_
  obtain ⟨key, value⟩ := e
  rw [entries, List.mem_flatMap, Std.HashMap.mem_toList_iff_getElem?_eq_some]
  constructor
  · rintro ⟨i, _, mem⟩
    exact (h.lookup_of_shard (Std.HashMap.mem_toList_iff_getElem?_eq_some.mp mem)).2
  · intro found
    rw [← h.contents key] at found
    exact ⟨place key, complete _, Std.HashMap.mem_toList_iff_getElem?_eq_some.mpr found⟩

theorem Holds.sum_sizes (h : Holds place shards whole) {is : List ι} (nodup : is.Nodup)
    (complete : ∀ i, i ∈ is) : (is.map fun i => (shards i).size).sum = whole.size := by
  rw [← length_entries, (h.entries_perm nodup complete).length_eq, Std.HashMap.length_toList]

end Shards
