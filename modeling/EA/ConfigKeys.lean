import EA.DiscoveryRuns

namespace EA

open ByteString

/-- The second name is the first one with leading characters of its printed major version,
the minus sign included, and what is left of them is the second major version. -/
def DigitsMoved (name : Bytes) (version : ModuleVersion) (name' : Bytes)
    (version' : ModuleVersion) : Prop :=
  (∃ digits : Bytes, digits ≠ [] ∧ name' = name ++ digits ∧
    decimal version.major = digits ++ decimal version'.major) ∧
  version.minor = version'.minor ∧ version.patch = version'.patch

def KeysCollide (name : Bytes) (version : ModuleVersion) (name' : Bytes)
    (version' : ModuleVersion) : Prop :=
  DigitsMoved name version name' version' ∨ DigitsMoved name' version' name version

theorem DigitsMoved.ne {name name' : Bytes} {version version' : ModuleVersion}
    (h : DigitsMoved name version name' version') : name ≠ name' := by
  obtain ⟨⟨digits, nonempty, rfl, _⟩, _⟩ := h
  intro eq
  exact nonempty (by simpa using eq)

theorem KeysCollide.ne {name name' : Bytes} {version version' : ModuleVersion}
    (h : KeysCollide name version name' version') : name ≠ name' := by
  rcases h with moved | moved
  · exact moved.ne
  · exact moved.ne.symm

theorem dot_not_mem_decimal (n : Int) : 46 ∉ decimal n := by
  intro mem
  rcases mem_decimal mem with sign | ⟨low, _⟩
  · exact absurd sign (by decide)
  · exact absurd low (by decide)

theorem makeConfigKey_eq (name : Bytes) (v : ModuleVersion) : makeConfigKey name v =
    configIdentify ++ (((name ++ decimal v.major) ++ 46 :: decimal v.minor) ++
      46 :: decimal v.patch) := by
  simp [makeConfigKey, ModuleVersion.toBytes]

/-- The two dots are the last ones of a key, and nothing marks where the name ends. -/
theorem makeConfigKey_eq_iff {name name' : Bytes} {v v' : ModuleVersion} :
    makeConfigKey name v = makeConfigKey name' v' ↔
      name ++ decimal v.major = name' ++ decimal v'.major ∧ v.minor = v'.minor ∧
        v.patch = v'.patch := by
  rw [makeConfigKey_eq, makeConfigKey_eq]
  constructor
  · intro h
    have body := List.append_cancel_left h
    obtain ⟨front, patch⟩ := append_separator_inj_last (dot_not_mem_decimal _)
      (dot_not_mem_decimal _) body
    obtain ⟨front, minor⟩ := append_separator_inj_last (dot_not_mem_decimal _)
      (dot_not_mem_decimal _) front
    exact ⟨front, decimal_injective minor, decimal_injective patch⟩
  · rintro ⟨front, minor, patch⟩
    rw [front, minor, patch]

theorem append_decimal_eq_iff {name name' : Bytes} {n n' : Int} :
    name ++ decimal n = name' ++ decimal n' ↔ (name = name' ∧ n = n') ∨
      (∃ digits, digits ≠ [] ∧ name' = name ++ digits ∧ decimal n = digits ++ decimal n') ∨
      ∃ digits, digits ≠ [] ∧ name = name' ++ digits ∧ decimal n' = digits ++ decimal n := by
  constructor
  · intro h
    rcases List.append_eq_append_iff.mp h with ⟨w, hname, hdigits⟩ | ⟨w, hname, hdigits⟩
    · by_cases nil : w = []
      · subst nil
        exact Or.inl ⟨by simpa using hname.symm, decimal_injective hdigits⟩
      · exact Or.inr (Or.inl ⟨w, nil, hname, hdigits⟩)
    · by_cases nil : w = []
      · subst nil
        exact Or.inl ⟨by simpa using hname, (decimal_injective hdigits).symm⟩
      · exact Or.inr (Or.inr ⟨w, nil, hname, hdigits⟩)
  · rintro (⟨rfl, rfl⟩ | ⟨w, _, rfl, hdigits⟩ | ⟨w, _, rfl, hdigits⟩)
    · rfl
    · rw [hdigits, List.append_assoc]
    · rw [hdigits, List.append_assoc]

theorem makeConfigKey_eq_iff_collide {name name' : Bytes} {v v' : ModuleVersion} :
    makeConfigKey name v = makeConfigKey name' v' ↔
      (name = name' ∧ v = v') ∨ KeysCollide name v name' v' := by
  have versions : v = v' ↔ v.major = v'.major ∧ v.minor = v'.minor ∧ v.patch = v'.patch := by
    cases v
    cases v'
    simp only [ModuleVersion.mk.injEq]
  have minors : v'.minor = v.minor ↔ v.minor = v'.minor := eq_comm
  have patches : v'.patch = v.patch ↔ v.patch = v'.patch := eq_comm
  rw [makeConfigKey_eq_iff, append_decimal_eq_iff, KeysCollide, DigitsMoved, DigitsMoved, versions,
    minors, patches, or_and_right, or_and_right, and_assoc]

/-- The configs that a request stores or deletes. -/
def NamesConfig (request : DiscoveryManagerRequest) (configs : ConfigTable) (name : Bytes)
    (version : ModuleVersion) : Prop :=
  request.configInfo.name = name ∧
    ((request.opType = .opCreateConfig ∧
        request.configInfo.version.getD kDefaultVersion = version) ∨
      request.opType = .opRemoveConfig ∧ match request.configInfo.version with
        | some v => v = version
        | none => ∃ versions, configs[name]? = some versions ∧ version ∈ versions)

theorem configs_batch_named {request : DiscoveryManagerRequest} {configs : ConfigTable}
    {p : Plan ConfigTable} (step : ConfigStep request configs p) :
    ∀ op ∈ p.batch, ∃ name version, NamesConfig request configs name version ∧
      op.1 = makeConfigKey name version := by
  cases step with
  | refused => simp [Plan.batch]
  | created version versions op keyed =>
    intro write mem
    cases List.mem_singleton.mp mem
    exact ⟨_, version, ⟨rfl, Or.inl ⟨op, keyed⟩⟩, rfl⟩
  | removedAll versions op all found =>
    intro write mem
    obtain ⟨version, hv, rfl⟩ := List.mem_map.mp mem
    refine ⟨_, version, ⟨rfl, Or.inr ⟨op, ?_⟩⟩, rfl⟩
    rw [all]
    exact ⟨versions, found, by simpa using hv⟩
  | removed version versions op one =>
    intro write mem
    cases List.mem_singleton.mp mem
    refine ⟨_, version, ⟨rfl, Or.inr ⟨op, ?_⟩⟩, rfl⟩
    rw [one]

/-- A request leaves the records under all keys that are not keys of its configs. -/
theorem configRecord_stays {serialises : MetaValue → Bool} {request : DiscoveryManagerRequest}
    {env : Env} {r : Replica} {key : Bytes} (tagged : configIdentify.isPrefixOf key = true)
    (apart : ∀ name version, NamesConfig request r.memory.configs name version →
      makeConfigKey name version ≠ key) :
    (onApply serialises request env r).1.db[key]? = r.db[key]? := by
  have applied := onApply_applied serialises request env r
  generalize onApply serialises request env r = out at applied
  cases applied with
  | schema p hp =>
    exact Plan.run_otherTag (b := 0x04) (schemaPlan_step hp).tagged (by decide) key tagged
  | users p hp =>
    exact Plan.run_otherTag (b := 0x04) (usersPlan_step hp).tagged (by decide) key tagged
  | instances p hp =>
    exact Plan.run_otherTag (b := 0x04) (instancesPlan_step hp).tagged (by decide) key tagged
  | unknown => rfl
  | configs p hp =>
    refine Plan.run_preserves (I := fun db _ => db[key]? = r.db[key]?) ?_
    have named := configs_batch_named (configsPlan_step hp)
    cases p with
    | refuse => rfl
    | write value batch dbError touched memory =>
      refine ⟨rfl, lookup_batch ?_ r.db⟩
      intro op hop eq
      obtain ⟨name, version, names, write⟩ := named op hop
      exact apart name version names (write.symm.trans eq)

/-- One config's key is no other config's, and storing or deleting the one does not
touch the other's record. -/
structure ConfigKeysApart (name : Bytes) (version : ModuleVersion) (name' : Bytes)
    (version' : ModuleVersion) : Prop where
  keys : makeConfigKey name version = makeConfigKey name' version' →
    name = name' ∧ version = version'
  record : ¬ (name = name' ∧ version = version') →
    ∀ (serialises : MetaValue → Bool) (request : DiscoveryManagerRequest) (env : Env)
      (r : Replica),
      -- no other config of the request has the key either
      (∀ n v, NamesConfig request r.memory.configs n v → (n = name ∧ v = version) ∨
        makeConfigKey n v ≠ makeConfigKey name' version') →
      (onApply serialises request env r).1.db[makeConfigKey name' version']? =
        r.db[makeConfigKey name' version']?

/-- Two configs share a key exactly where one name goes on with characters that the other
one's printed major version begins with: nothing stands between the name and the version. -/
theorem config_keys_apart_iff (name : Bytes) (version : ModuleVersion) (name' : Bytes)
    (version' : ModuleVersion) :
    ConfigKeysApart name version name' version' ↔
      ¬ KeysCollide name version name' version' := by
  constructor
  · rintro ⟨keys, _⟩ collide
    exact collide.ne (keys (makeConfigKey_eq_iff_collide.mpr (Or.inr collide))).1
  · intro apart
    have keys : makeConfigKey name version = makeConfigKey name' version' →
        name = name' ∧ version = version' :=
      fun eq => (makeConfigKey_eq_iff_collide.mp eq).resolve_right apart
    refine ⟨keys, fun differ serialises request env r others => ?_⟩
    refine configRecord_stays rfl fun n v names => ?_
    rcases others n v names with ⟨rfl, rfl⟩ | ne
    · exact fun eq => differ (keys eq)
    · exact ne

theorem config_keys_collide :
    ¬ ∀ name version name' version', ConfigKeysApart name version name' version' := by
  intro apart
  have same : makeConfigKey (ascii "a") ⟨11, 0, 0⟩ = makeConfigKey (ascii "a1") ⟨1, 0, 0⟩ := by
    decide
  have names := ((apart (ascii "a") ⟨11, 0, 0⟩ (ascii "a1") ⟨1, 0, 0⟩).keys same).1
  exact absurd names (by decide)

end EA
