import EA.Lib.Table

universe u v

/-- Records that are found by a name and by a number: `idMap` and `infoMap`
invert each other, and the numbers in use lie between one and `bound`. -/
structure Registry {κ : Type u} {ρ : Type v} [Ord κ] [Std.TransOrd κ] (nameOf : ρ → κ)
    (idOf : ρ → Nat) (idMap : Table κ Nat) (infoMap : Table Nat ρ) (bound : Nat) : Prop where
  inverse : ∀ name id, idMap[name]? = some id ↔ ∃ r, infoMap[id]? = some r ∧ nameOf r = name
  carries : ∀ id r, infoMap[id]? = some r → idOf r = id
  positive : ∀ id r, infoMap[id]? = some r → 0 < id
  bounded : ∀ id r, infoMap[id]? = some r → id ≤ bound

set_option linter.unusedSectionVars false

namespace Registry

variable {κ : Type u} {ρ : Type v} [Ord κ] [Std.TransOrd κ] [Std.LawfulEqOrd κ]
  {nameOf : ρ → κ} {idOf : ρ → Nat} {idMap : Table κ Nat} {infoMap : Table Nat ρ} {bound : Nat}

theorem empty (bound : Nat) :
    Registry nameOf idOf (∅ : Table κ Nat) (∅ : Table Nat ρ) bound where
  inverse := by simp
  carries := by simp
  positive := by simp
  bounded := by simp

/-- A name points to one number, a number to one name. -/
theorem name_eq (h : Registry nameOf idOf idMap infoMap bound) {name : κ} {id : Nat} {r : ρ}
    (hid : idMap[name]? = some id) (hr : infoMap[id]? = some r) : nameOf r = name := by
  obtain ⟨r', hr', same⟩ := (h.inverse name id).mp hid
  cases Option.some.inj (hr.symm.trans hr')
  exact same

/-- The records carry their numbers, so that none is there twice. -/
theorem nodup_vals (h : Registry nameOf idOf idMap infoMap bound) : infoMap.vals.Nodup := by
  refine (Table.nodup_toList infoMap).map_on fun e mem e' mem' same => ?_
  have carried := h.carries _ _ (Std.ExtTreeMap.mem_toList_iff_getElem?_eq_some.mp mem)
  have carried' := h.carries _ _ (Std.ExtTreeMap.mem_toList_iff_getElem?_eq_some.mp mem')
  refine Prod.ext ?_ same
  rw [← carried, ← carried', same]

theorem id_of_name (h : Registry nameOf idOf idMap infoMap bound) {id : Nat} {r : ρ}
    (hr : infoMap[id]? = some r) : idMap[nameOf r]? = some id :=
  (h.inverse _ id).mpr ⟨r, hr, rfl⟩

theorem lookup (h : Registry nameOf idOf idMap infoMap bound) {name : κ} {id : Nat}
    (hid : idMap[name]? = some id) : ∃ r, infoMap[id]? = some r ∧ nameOf r = name ∧ idOf r = id := by
  obtain ⟨r, hr, same⟩ := (h.inverse name id).mp hid
  exact ⟨r, hr, same, h.carries id r hr⟩

theorem create (h : Registry nameOf idOf idMap infoMap bound) {r : ρ}
    (absent : idMap[nameOf r]? = none) (number : idOf r = bound + 1) :
    Registry nameOf idOf (idMap.insert (nameOf r) (idOf r)) (infoMap.insert (idOf r) r)
      (bound + 1) where
  inverse name id := by
    constructor
    · intro hid
      rcases Table.lookup_insert_some hid with ⟨rfl, rfl⟩ | ⟨_, hid⟩
      · exact ⟨r, Table.lookup_insert_self .., rfl⟩
      · obtain ⟨s, hs, same⟩ := (h.inverse name id).mp hid
        have le := h.bounded id s hs
        exact ⟨s, (Table.lookup_insert_ne _ _ (by omega)).trans hs, same⟩
    · rintro ⟨s, hs, rfl⟩
      rcases Table.lookup_insert_some hs with ⟨rfl, rfl⟩ | ⟨_, hs⟩
      · exact Table.lookup_insert_self ..
      · have hid := h.id_of_name hs
        have ne : nameOf r ≠ nameOf s := by
          intro same
          rw [same, hid] at absent
          simp at absent
        exact (Table.lookup_insert_ne _ _ ne).trans hid
  carries id s hs := by
    rcases Table.lookup_insert_some hs with ⟨eq, rfl⟩ | ⟨_, hs⟩
    · exact eq
    · exact h.carries id s hs
  positive id s hs := by
    rcases Table.lookup_insert_some hs with ⟨eq, _⟩ | ⟨_, hs⟩
    · omega
    · exact h.positive id s hs
  bounded id s hs := by
    rcases Table.lookup_insert_some hs with ⟨eq, _⟩ | ⟨_, hs⟩
    · omega
    · have := h.bounded id s hs
      omega

theorem drop (h : Registry nameOf idOf idMap infoMap bound) {name : κ} {id : Nat}
    (hid : idMap[name]? = some id) :
    Registry nameOf idOf (idMap.erase name) (infoMap.erase id) bound where
  inverse other j := by
    constructor
    · intro hj
      obtain ⟨ne, hj⟩ := Table.lookup_erase_some hj
      obtain ⟨s, hs, rfl⟩ := (h.inverse other j).mp hj
      have differ : id ≠ j := by
        rintro rfl
        exact ne (h.name_eq hid hs).symm
      exact ⟨s, (Table.lookup_erase_ne _ differ).trans hs, rfl⟩
    · rintro ⟨s, hs, rfl⟩
      obtain ⟨ne, hs⟩ := Table.lookup_erase_some hs
      have hj := h.id_of_name hs
      have differ : name ≠ nameOf s := by
        rintro rfl
        exact ne (Option.some.inj (hid.symm.trans hj))
      exact (Table.lookup_erase_ne _ differ).trans hj
  carries j s hs := h.carries j s (Table.lookup_erase_some hs).2
  positive j s hs := h.positive j s (Table.lookup_erase_some hs).2
  bounded j s hs := h.bounded j s (Table.lookup_erase_some hs).2

theorem modify (h : Registry nameOf idOf idMap infoMap bound) {id : Nat} {r r' : ρ}
    (hr : infoMap[id]? = some r) (sameName : nameOf r' = nameOf r) (sameId : idOf r' = idOf r) :
    Registry nameOf idOf (idMap.insert (nameOf r') (idOf r')) (infoMap.insert (idOf r') r')
      bound := by
  have carried := h.carries id r hr
  have hid := h.id_of_name hr
  have keep : idMap.insert (nameOf r') (idOf r') = idMap := by
    apply Std.ExtTreeMap.ext_getElem?
    intro name
    by_cases eq : nameOf r' = name
    · subst name
      rw [Table.lookup_insert_self, sameName, hid, sameId, carried]
    · exact Table.lookup_insert_ne _ _ eq
  rw [keep, sameId, carried]
  refine ⟨fun name j => ?_, fun j s hs => ?_, fun j s hs => ?_, fun j s hs => ?_⟩
  · rw [h.inverse name j]
    by_cases eq : id = j
    · subst j
      rw [Table.lookup_insert_self]
      constructor
      · rintro ⟨s, hs, rfl⟩
        cases Option.some.inj (hr.symm.trans hs)
        exact ⟨r', rfl, sameName⟩
      · rintro ⟨s, hs, rfl⟩
        cases Option.some.inj hs
        exact ⟨r, hr, sameName.symm⟩
    · rw [Table.lookup_insert_ne _ _ eq]
  · rcases Table.lookup_insert_some hs with ⟨rfl, rfl⟩ | ⟨_, hs⟩
    · exact sameId.trans carried
    · exact h.carries j s hs
  · rcases Table.lookup_insert_some hs with ⟨rfl, _⟩ | ⟨_, hs⟩
    · exact h.positive _ r hr
    · exact h.positive j s hs
  · rcases Table.lookup_insert_some hs with ⟨rfl, _⟩ | ⟨_, hs⟩
    · exact h.bounded _ r hr
    · exact h.bounded j s hs

section Look

/-- The record that a name leads to. -/
def look (idMap : Table κ Nat) (infoMap : Table Nat ρ) (name : κ) : Option ρ :=
  (idMap[name]?).bind fun id => infoMap[id]?

theorem look_of_id {name : κ} {id : Nat} (hid : idMap[name]? = some id) :
    look idMap infoMap name = infoMap[id]? := by
  rw [look, hid]
  rfl

theorem look_of_none {name : κ} (absent : idMap[name]? = none) :
    look idMap infoMap name = none := by
  rw [look, absent]
  rfl

theorem look_eq_some (h : Registry nameOf idOf idMap infoMap bound) {name : κ} {r : ρ} :
    look idMap infoMap name = some r ↔ infoMap[idOf r]? = some r ∧ nameOf r = name := by
  constructor
  · intro found
    obtain ⟨id, hid, hr⟩ := Option.bind_eq_some_iff.mp found
    rw [h.carries id r hr]
    exact ⟨hr, h.name_eq hid hr⟩
  · rintro ⟨hr, rfl⟩
    rw [look_of_id (h.id_of_name hr), hr]

theorem look_eq_none (h : Registry nameOf idOf idMap infoMap bound) {name : κ} :
    look idMap infoMap name = none ↔ idMap[name]? = none := by
  refine ⟨fun missing => ?_, look_of_none⟩
  cases hid : idMap[name]? with
  | none => rfl
  | some id =>
    obtain ⟨r, hr, _⟩ := h.lookup hid
    rw [look_of_id hid, hr] at missing
    simp at missing

variable [DecidableEq κ]

theorem look_put {name : κ} {id : Nat} {r : ρ}
    (own : ∀ other, other ≠ name → idMap[other]? ≠ some id) :
    look (idMap.insert name id) (infoMap.insert id r) =
      Function.update (look idMap infoMap) name (some r) := by
  funext other
  by_cases eq : other = name
  · subst other
    rw [Function.update_self, look_of_id (Table.lookup_insert_self ..), Table.lookup_insert_self]
  · rw [Function.update_of_ne eq, look, look, Table.lookup_insert_ne _ _ (Ne.symm eq)]
    cases hid : idMap[other]? with
    | none => rfl
    | some id' =>
      have ne : id ≠ id' := by
        rintro rfl
        exact own other eq hid
      exact Table.lookup_insert_ne _ _ ne

theorem look_create (h : Registry nameOf idOf idMap infoMap bound) {r : ρ}
    (number : idOf r = bound + 1) :
    look (idMap.insert (nameOf r) (idOf r)) (infoMap.insert (idOf r) r) =
      Function.update (look idMap infoMap) (nameOf r) (some r) := by
  refine look_put fun other _ hid => ?_
  obtain ⟨s, hs, _⟩ := h.lookup hid
  have le := h.bounded _ s hs
  omega

theorem look_modify (h : Registry nameOf idOf idMap infoMap bound) {id : Nat} {r r' : ρ}
    (hr : infoMap[id]? = some r) (sameName : nameOf r' = nameOf r) (sameId : idOf r' = idOf r) :
    look (idMap.insert (nameOf r') (idOf r')) (infoMap.insert (idOf r') r') =
      Function.update (look idMap infoMap) (nameOf r') (some r') := by
  have carried := h.carries id r hr
  refine look_put fun other ne hid => ?_
  rw [sameId, carried] at hid
  exact ne ((h.name_eq hid hr).symm.trans sameName.symm)

theorem look_drop (h : Registry nameOf idOf idMap infoMap bound) {name : κ} {id : Nat}
    (hid : idMap[name]? = some id) :
    look (idMap.erase name) (infoMap.erase id) =
      Function.update (look idMap infoMap) name none := by
  obtain ⟨r, hr, named, _⟩ := h.lookup hid
  funext other
  by_cases eq : other = name
  · subst other
    rw [Function.update_self, look_of_none (Table.lookup_erase_self ..)]
  · rw [Function.update_of_ne eq, look, look, Table.lookup_erase_ne _ (Ne.symm eq)]
    cases hid' : idMap[other]? with
    | none => rfl
    | some id' =>
      have ne : id ≠ id' := by
        rintro rfl
        exact eq ((h.name_eq hid' hr).symm.trans named)
      exact Table.lookup_erase_ne _ ne

/-- Both maps are determined by what the names of the records lead to. -/
theorem eq_of_look {idMap' : Table κ Nat} {infoMap' : Table Nat ρ} {bound' : Nat}
    (h : Registry nameOf idOf idMap infoMap bound) (h' : Registry nameOf idOf idMap' infoMap' bound')
    (same : ∀ r, look idMap infoMap (nameOf r) = look idMap' infoMap' (nameOf r)) :
    idMap = idMap' ∧ infoMap = infoMap' := by
  have found : ∀ (id : Nat) (r : ρ), infoMap[id]? = some r ↔ infoMap'[id]? = some r := by
    intro id r
    constructor
    · intro hr
      have carried := h.carries id r hr
      have here : look idMap infoMap (nameOf r) = some r :=
        h.look_eq_some.mpr ⟨by rw [carried]; exact hr, rfl⟩
      rw [same, h'.look_eq_some, carried] at here
      exact here.1
    · intro hr
      have carried := h'.carries id r hr
      have here : look idMap' infoMap' (nameOf r) = some r :=
        h'.look_eq_some.mpr ⟨by rw [carried]; exact hr, rfl⟩
      rw [← same, h.look_eq_some, carried] at here
      exact here.1
  have infos : infoMap = infoMap' := by
    apply Std.ExtTreeMap.ext_getElem?
    exact fun id => Option.ext fun r => found id r
  subst infos
  refine ⟨?_, rfl⟩
  apply Std.ExtTreeMap.ext_getElem?
  refine fun name => Option.ext fun id => ?_
  rw [h.inverse name id, h'.inverse name id]

end Look

section Rebuild

variable {rs : List ρ}

/-- Both maps are rebuilt from a list of the records in use, in any order. -/
theorem rebuild_infoMap (h : Registry nameOf idOf idMap infoMap bound)
    (exact : ∀ r, r ∈ rs ↔ infoMap[idOf r]? = some r) : Table.insertAll idOf id rs ∅ = infoMap := by
  apply Table.insertAll_eq
  intro j s
  constructor
  · intro hs
    have eq := h.carries j s hs
    exact ⟨s, (exact s).mpr (by rw [eq]; exact hs), eq, rfl⟩
  · rintro ⟨r, hr, rfl, rfl⟩
    exact (exact r).mp hr

theorem rebuild_idMap (h : Registry nameOf idOf idMap infoMap bound)
    (exact : ∀ r, r ∈ rs ↔ infoMap[idOf r]? = some r) :
    Table.insertAll nameOf idOf rs ∅ = idMap := by
  apply Table.insertAll_eq
  intro name j
  rw [h.inverse name j]
  constructor
  · rintro ⟨s, hs, rfl⟩
    have eq := h.carries j s hs
    exact ⟨s, (exact s).mpr (by rw [eq]; exact hs), rfl, eq⟩
  · rintro ⟨r, hr, rfl, rfl⟩
    exact ⟨r, (exact r).mp hr, rfl⟩

end Rebuild

end Registry
