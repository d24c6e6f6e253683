import EA.InstanceIndex
import EA.ServletOrigin

namespace EA

open ByteString

variable {serialises : MetaValue → Bool} {ok : Replica → DiscoveryEvent → Prop} {r : Replica}

/-- The overload of `make_servlet_key` over three names. The handlers that do not call it
write the same concatenation. -/
def makeServletKeyOfNames (namespaceName zoneName servletName : Bytes) : Bytes :=
  namespaceName ++ 0x01 :: zoneName ++ 0x01 :: servletName

structure QualifiedName where
  namespaceName : Bytes
  zoneName : Bytes
  servletName : Bytes
deriving DecidableEq

def QualifiedName.zoneKey (a : QualifiedName) : Bytes := makeZoneKey a.namespaceName a.zoneName

def QualifiedName.servletKey (a : QualifiedName) : Bytes :=
  makeServletKeyOfNames a.namespaceName a.zoneName a.servletName

def ServletInfo.qualified (info : ServletInfo) : QualifiedName :=
  ⟨info.namespaceName, info.zone, info.servletName⟩

def ServletInstance.qualified (info : ServletInstance) : QualifiedName :=
  ⟨info.namespaceName, info.zoneName, info.servletName⟩

/-- One namespace ends, and one zone begins, in the middle of the other's namespace or
zone: the separator between them is a byte of the other pair's name. -/
def ZonesAmbiguous (n z n' z' : Bytes) : Prop :=
  CutBefore 0x01 n z n' z' ∨ CutBefore 0x01 n' z' n z

/-- The same for a servlet, whose zone key and name stand on both sides of the separator. -/
def ServletsAmbiguous (a b : QualifiedName) : Prop :=
  CutBefore 0x01 a.zoneKey a.servletName b.zoneKey b.servletName ∨
    CutBefore 0x01 b.zoneKey b.servletName a.zoneKey a.servletName ∨
    a.servletName = b.servletName ∧
      ZonesAmbiguous a.namespaceName a.zoneName b.namespaceName b.zoneName

theorem zoneKey_eq_iff_ambiguous {n z n' z' : Bytes} :
    makeZoneKey n z = makeZoneKey n' z' ↔ (n = n' ∧ z = z') ∨ ZonesAmbiguous n z n' z' :=
  append_separator_eq_iff

theorem ZonesAmbiguous.ne {n z n' z' : Bytes} (h : ZonesAmbiguous n z n' z') : n ≠ n' := by
  rcases h with cut | cut
  · exact cut.ne
  · exact cut.ne.symm

theorem servletKey_eq_iff_ambiguous {a b : QualifiedName} :
    a.servletKey = b.servletKey ↔ a = b ∨ ServletsAmbiguous a b := by
  have keys : a.servletKey = b.servletKey ↔
      (a.zoneKey = b.zoneKey ∧ a.servletName = b.servletName) ∨
      CutBefore 0x01 a.zoneKey a.servletName b.zoneKey b.servletName ∨
      CutBefore 0x01 b.zoneKey b.servletName a.zoneKey a.servletName :=
    append_separator_eq_iff
  have zones : a.zoneKey = b.zoneKey ↔ _ := zoneKey_eq_iff_ambiguous
  have names : a = b ↔ (a.namespaceName = b.namespaceName ∧ a.zoneName = b.zoneName) ∧
      a.servletName = b.servletName := by
    cases a
    cases b
    simp only [QualifiedName.mk.injEq, and_assoc]
  rw [keys, zones, names, ServletsAmbiguous, or_and_right, or_assoc,
    or_comm (a := ZonesAmbiguous .. ∧ _), or_assoc, and_comm (a := ZonesAmbiguous ..)]

theorem ServletsAmbiguous.ne {a b : QualifiedName} (h : ServletsAmbiguous a b) : a ≠ b := by
  rintro rfl
  rcases h with cut | cut | ⟨_, zones⟩
  · exact cut.ne rfl
  · exact cut.ne rfl
  · exact zones.ne rfl

theorem not_zonesAmbiguous {n z n' z' : Bytes} (hn : 0x01 ∉ n) (hz : 0x01 ∉ z) :
    ¬ ZonesAmbiguous n z n' z' := by
  rintro (⟨w, _, rfl⟩ | cut)
  · simp at hz
  · exact not_cutBefore hn cut

/-- A name without the separator shares its key with no other name at all. -/
theorem not_servletsAmbiguous {a b : QualifiedName} (hn : 0x01 ∉ a.namespaceName)
    (hz : 0x01 ∉ a.zoneName) (hs : 0x01 ∉ a.servletName) : ¬ ServletsAmbiguous a b := by
  rintro (⟨w, _, eq⟩ | ⟨w, eq, _⟩ | ⟨_, zones⟩)
  · rw [eq] at hs
    simp at hs
  · have key : makeZoneKey a.namespaceName a.zoneName =
        makeZoneKey b.namespaceName (b.zoneName ++ 0x01 :: w) := by
      rw [makeZoneKey, makeZoneKey, ← List.cons_append, ← List.append_assoc]
      exact eq
    rcases zoneKey_eq_iff_ambiguous.mp key with ⟨_, zone⟩ | ambiguous
    · rw [zone] at hz
      simp at hz
    · exact not_zonesAmbiguous hn hz ambiguous
  · exact not_zonesAmbiguous hn hz zones

/-- Equal keys come from equal names. -/
structure KeysApart (a b : QualifiedName) : Prop where
  zones : a.zoneKey = b.zoneKey → a.namespaceName = b.namespaceName ∧ a.zoneName = b.zoneName
  servlets : a.servletKey = b.servletKey → a = b

theorem keysApart_iff {a b : QualifiedName} :
    KeysApart a b ↔ ¬ ZonesAmbiguous a.namespaceName a.zoneName b.namespaceName b.zoneName ∧
      ¬ ServletsAmbiguous a b := by
  constructor
  · rintro ⟨zones, servlets⟩
    refine ⟨fun ambiguous => ?_, fun ambiguous => ?_⟩
    · exact ambiguous.ne (zones (zoneKey_eq_iff_ambiguous.mpr (Or.inr ambiguous))).1
    · exact ambiguous.ne (servlets (servletKey_eq_iff_ambiguous.mpr (Or.inr ambiguous)))
  · rintro ⟨zones, servlets⟩
    exact ⟨fun eq => (zoneKey_eq_iff_ambiguous.mp eq).resolve_right zones,
      fun eq => (servletKey_eq_iff_ambiguous.mp eq).resolve_right servlets⟩

/-- The sets of the instance indexes hold only addresses that are registered under
their key. Dropping an instance erases whole sets, so they may miss some. -/
structure IndexesSound (m : InstanceManager) : Prop where
  namespaces : Index.Sound ServletInstance.namespaceName m.namespaceInstance m.instanceInfo
  zones : Index.Sound ServletInstance.zoneKey m.zoneInstance m.instanceInfo
  servlets : Index.Sound ServletInstance.servletKey m.servletInstance m.instanceInfo

theorem IndexesExact.sound {m : InstanceManager} (h : IndexesExact m) : IndexesSound m :=
  ⟨h.namespaces.sound, h.zones.sound, h.servlets.sound⟩

theorem IndexesSound.set {m : InstanceManager} (h : IndexesSound m) {info : ServletInstance}
    (same : ∀ old, m.instanceInfo[info.address]? = some old → info.SamePlace old) :
    IndexesSound (m.setInstanceInfo info) :=
  have names := ServletInstance.keys_of_samePlace same
  ⟨h.namespaces.insert fun old found => (names old found).1,
    h.zones.insert fun old found => (names old found).2.1,
    h.servlets.insert fun old found => (names old found).2.2⟩

theorem IndexesSound.drop {m : InstanceManager} (h : IndexesSound m) {address : Bytes}
    {info : ServletInstance} (found : m.instanceInfo[address]? = some info) (now : Int) :
    IndexesSound (m.removeInstanceInfo now address) := by
  have read : m.instanceInfo.getD address default = info := by
    rw [Table.getD_eq, found]
    rfl
  rw [InstanceManager.removeInstanceInfo, read]
  exact ⟨h.namespaces.erase found, h.zones.erase found, h.servlets.erase found⟩

structure InstancesSound (db : MetaDb) (m : InstanceManager) : Prop where
  mirrored : InstancesMirrored db m
  indexes : IndexesSound m

theorem instancesSound_step {request : DiscoveryManagerRequest} {env : Env} {r : Replica}
    {p : Plan InstanceManager} (h : InstancesSound r.db r.memory.instances)
    (step : InstanceStep request env.now r.memory.instances p) :
    InstancesSound (p.run serialises env.dbOk r.db).1.1 (p.run serialises env.dbOk r.db).1.2 := by
  cases step with
  | refused => exact h
  | added info op place absent =>
    rw [← place.1] at absent ⊢
    refine Plan.run_write_preserves h fun _ _ => ⟨h.mirrored.set info, h.indexes.set ?_⟩
    intro old found
    rw [absent] at found
    simp at found
  | dropped info op found =>
    exact Plan.run_write_preserves h fun _ _ =>
      ⟨h.mirrored.drop env.now _, h.indexes.drop found env.now⟩
  | updated old info op found place =>
    have address : info.address = request.instanceInfo.address :=
      place.1.trans (h.mirrored.addressed _ old found)
    rw [← address] at found ⊢
    refine Plan.run_write_preserves h fun _ _ => ⟨h.mirrored.set info, h.indexes.set ?_⟩
    intro old' found'
    cases Option.some.inj (found.symm.trans found')
    exact place

theorem reachable_instancesSound (h : Reachable serialises ok r) :
    InstancesSound r.db r.memory.instances := by
  refine instances_invariant ⟨instancesMirrored_empty, indexesExact_empty.sound⟩ ?_ ?_ ?_ h
  · exact fun same sound => ⟨sound.mirrored.frame same, sound.indexes⟩
  · intro r request env p sound _ hp
    exact instancesSound_step sound (instancesPlan_step hp)
  · intro db m m' sound load
    obtain ⟨m'', loaded, infos, exact⟩ := loadInstances_eq sound.mirrored
    rw [loaded] at load
    cases Option.some.inj load
    have mirrored := sound.mirrored
    refine ⟨⟨?_, ?_, mirrored.recorded⟩, exact.sound⟩
    · rw [infos]
      exact mirrored.addressed
    · rw [infos]
      exact mirrored.mirror

/-- A zone request changes only what is registered under its zone key. -/
theorem zone_stays {request : DiscoveryManagerRequest} {db : MetaDb} {s : Schema}
    {p : Plan Schema} (cat : Catalog db s) (step : SchemaStep request s p) {id : Nat}
    {zone : ZoneInfo} (here : s.zones.infoMap[id]? = some zone)
    (other : zone.zoneKey ≠ request.zoneKey) :
    p.Preserves (fun db' s' => s'.zones.infoMap[id]? = some zone ∧
      db'[constructZoneKey id]? = db[constructZoneKey id]?) db := by
  have foreign : ∀ {batch : List BatchOp}, (∀ op ∈ batch, owner op.1 ≠ some 0x09) →
      (batch.foldl BatchOp.apply db)[constructZoneKey id]? = db[constructZoneKey id]? := by
    intro batch apart
    refine lookup_batch ?_ db
    rintro op hop eq
    exact apart op hop (by rw [eq, owner_zoneKey])
  -- the request's own number is another one
  have apart : ∀ {n : Nat}, s.zones.idMap[request.zoneKey]? = some n → n ≠ id := by
    rintro n found rfl
    exact other (cat.zones.registry.name_eq found here)
  cases step with
  | refused | namespaceHasZones | zoneHasServlets => exact ⟨here, rfl⟩
  | createNamespace | dropNamespace | modifyNamespace | createServlet | dropServlet
  | modifyServlet => exact ⟨⟨here, rfl⟩, here, foreign (by simp)⟩
  | createZone info named parent absent number =>
    have bounded := cat.zones.registry.bounded id zone here
    have ne : info.zoneId ≠ id := by omega
    refine ⟨⟨here, rfl⟩, (Table.lookup_insert_ne _ _ ne).trans here, ?_⟩
    refine lookup_batch ?_ db
    rintro op hop eq
    rcases List.mem_cons.mp hop with rfl | hop
    · exact ne (constructZoneKey_injective eq)
    · cases List.mem_singleton.mp hop
      exact zoneKeyspace.apart id eq.symm
  | dropZone namespaceId n parent found =>
    have erased := ZoneManager.eraseZoneInfo_of_lookup (m := s.zones.touchServletIds n) found
    refine ⟨⟨here, rfl⟩, ?_, ?_⟩
    · rw [erased]
      exact (Table.lookup_erase_ne _ (apart found)).trans here
    · exact Table.lookup_erase_ne _ fun eq => apart found (constructZoneKey_injective eq)
  | modifyZone n old info found read sameNames sameIds =>
    have stored := cat.getD_zone found read
    have number : info.zoneId = n := sameIds.1.trans (cat.zones.registry.carries n old stored)
    rw [ZoneManager.touchInfo_of_lookup stored]
    refine ⟨⟨here, rfl⟩, ?_, ?_⟩
    · exact (Table.lookup_insert_ne _ _ (number ▸ apart found)).trans here
    · exact Table.lookup_insert_ne _ _ fun eq => apart found (constructZoneKey_injective eq)

/-- What a name addresses is its own: the number that creations, drops, modifications and
queries find under its key, the sets of the instance indexes, and the zone that a request
for it changes. A creation fails only where its own zone exists. -/
structure AddressesOwn (serialises : MetaValue → Bool) (r : Replica) (a : QualifiedName) :
    Prop where
  zone : ∀ (id : Nat) (info : ZoneInfo), r.memory.schema.zones.idMap[a.zoneKey]? = some id →
    r.memory.schema.zones.infoMap[id]? = some info →
    a.namespaceName = info.namespaceName ∧ a.zoneName = info.zone
  servlet : ∀ (id : Nat) (info : ServletInfo),
    r.memory.schema.servlets.idMap[a.servletKey]? = some id → id ≠ 0 →
    r.memory.schema.servlets.infoMap[id]? = some info → a = info.qualified
  zoneInstance : ∀ (address : Bytes) (info : ServletInstance),
    r.memory.instances.zoneInstance.Has a.zoneKey address →
    r.memory.instances.instanceInfo[address]? = some info →
    a.namespaceName = info.namespaceName ∧ a.zoneName = info.zoneName
  servletInstance : ∀ (address : Bytes) (info : ServletInstance),
    r.memory.instances.servletInstance.Has a.servletKey address →
    r.memory.instances.instanceInfo[address]? = some info → a = info.qualified
  zoneRequest : ∀ (request : DiscoveryManagerRequest) (env : Env),
    request.zoneInfo.namespaceName = a.namespaceName → request.zoneInfo.zone = a.zoneName →
    ∀ (id : Nat) (info : ZoneInfo), r.memory.schema.zones.infoMap[id]? = some info →
    ¬ (a.namespaceName = info.namespaceName ∧ a.zoneName = info.zone) →
    (onApply serialises request env r).1.memory.schema.zones.infoMap[id]? = some info ∧
      (onApply serialises request env r).1.db[constructZoneKey id]? = r.db[constructZoneKey id]?
  zoneCreation : ∀ (request : DiscoveryManagerRequest) (env : Env),
    request.opType = .opCreateZone →
    request.zoneInfo.namespaceName = a.namespaceName → request.zoneInfo.zone = a.zoneName →
    r.memory.schema.namespaces.getNamespaceId a.namespaceName ≠ 0 →
    (∀ (id : Nat) (info : ZoneInfo), r.memory.schema.zones.infoMap[id]? = some info →
      ¬ (a.namespaceName = info.namespaceName ∧ a.zoneName = info.zone)) →
    env.dbOk = true → (∀ info, serialises (.zoneInfo info) = true) →
    (onApply serialises request env r).2.errcode = .success

/-- Nothing that is registered shares a key with a name that is not its own. -/
structure NoneAmbiguous (r : Replica) (a : QualifiedName) : Prop where
  zone : ∀ (id : Nat) (info : ZoneInfo), r.memory.schema.zones.infoMap[id]? = some info →
    ¬ ZonesAmbiguous a.namespaceName a.zoneName info.namespaceName info.zone
  servlet : ∀ (id : Nat) (info : ServletInfo),
    r.memory.schema.servlets.idMap[info.servletKey]? = some id → id ≠ 0 →
    r.memory.schema.servlets.infoMap[id]? = some info → ¬ ServletsAmbiguous a info.qualified
  zoneInstance : ∀ (address : Bytes) (info : ServletInstance),
    r.memory.instances.zoneInstance.Has info.zoneKey address →
    r.memory.instances.instanceInfo[address]? = some info →
    ¬ ZonesAmbiguous a.namespaceName a.zoneName info.namespaceName info.zoneName
  servletInstance : ∀ (address : Bytes) (info : ServletInstance),
    r.memory.instances.servletInstance.Has info.servletKey address →
    r.memory.instances.instanceInfo[address]? = some info → ¬ ServletsAmbiguous a info.qualified

theorem noneAmbiguous_of_addressesOwn (h : Reachable serialises ok r) {a : QualifiedName}
    (own : AddressesOwn serialises r a) : NoneAmbiguous r a := by
  have cat := reachable_catalog h
  refine ⟨?_, ?_, ?_, ?_⟩
  · intro id info here ambiguous
    have key : a.zoneKey = info.zoneKey := zoneKey_eq_iff_ambiguous.mpr (Or.inr ambiguous)
    have found := cat.zones.registry.id_of_name here
    exact ambiguous.ne (own.zone id info (key ▸ found) here).1
  · intro id info found nonzero here ambiguous
    have key : a.servletKey = info.servletKey := servletKey_eq_iff_ambiguous.mpr (Or.inr ambiguous)
    exact ambiguous.ne (own.servlet id info (key ▸ found) nonzero here)
  · intro address info has here ambiguous
    have key : a.zoneKey = info.zoneKey := zoneKey_eq_iff_ambiguous.mpr (Or.inr ambiguous)
    exact ambiguous.ne (own.zoneInstance address info (key ▸ has) here).1
  · intro address info has here ambiguous
    have key : a.servletKey = info.servletKey := servletKey_eq_iff_ambiguous.mpr (Or.inr ambiguous)
    exact ambiguous.ne (own.servletInstance address info (key ▸ has) here)

theorem createZone_success {request : DiscoveryManagerRequest} {env : Env}
    (op : request.opType = .opCreateZone)
    (owner : r.memory.schema.namespaces.getNamespaceId request.zoneInfo.namespaceName ≠ 0)
    (absent : r.memory.schema.zones.idMap[request.zoneKey]? = none) (works : env.dbOk = true)
    (fits : ∀ info, serialises (.zoneInfo info) = true) :
    (onApply serialises request env r).2.errcode = .success := by
  have plan : schemaPlan request r.memory.schema = some (createZone request r.memory.schema) := by
    simp only [schemaPlan, op]
  have out : onApply serialises request env r = _ :=
    onApply_of_handle (handle_of_schemaPlan plan env.now)
  rw [DiscoveryManagerRequest.zoneKey] at absent
  rw [out, createZone, if_neg owner]
  dsimp only
  rw [absent]
  simp [Plan.run, works, fits]

theorem addressesOwn_of_noneAmbiguous (h : Reachable serialises ok r) {a : QualifiedName}
    (none : NoneAmbiguous r a) : AddressesOwn serialises r a := by
  have cat := reachable_catalog h
  have zoneOwn : ∀ (id : Nat) (info : ZoneInfo), r.memory.schema.zones.infoMap[id]? = some info →
      a.zoneKey = info.zoneKey → a.namespaceName = info.namespaceName ∧ a.zoneName = info.zone :=
    fun id info here key => (zoneKey_eq_iff_ambiguous.mp key).resolve_right (none.zone id info here)
  refine ⟨?_, ?_, ?_, ?_, ?_, ?_⟩
  · intro id info found here
    exact zoneOwn id info here (cat.zones.registry.name_eq found here).symm
  · intro id info found nonzero here
    rcases (reachable_servletsTracked h).named _ id found with zero | ⟨named, hnamed, _, key⟩
    · exact absurd zero nonzero
    · cases Option.some.inj (here.symm.trans hnamed)
      refine (servletKey_eq_iff_ambiguous.mp key.symm).resolve_right ?_
      exact none.servlet id info (key ▸ found) nonzero here
  · intro address info has here
    obtain ⟨named, hnamed, key⟩ := (reachable_instancesSound h).indexes.zones _ _ has
    cases Option.some.inj (here.symm.trans hnamed)
    refine (zoneKey_eq_iff_ambiguous.mp key.symm).resolve_right ?_
    exact none.zoneInstance address info (key ▸ has) here
  · intro address info has here
    obtain ⟨named, hnamed, key⟩ := (reachable_instancesSound h).indexes.servlets _ _ has
    cases Option.some.inj (here.symm.trans hnamed)
    refine (servletKey_eq_iff_ambiguous.mp key.symm).resolve_right ?_
    exact none.servletInstance address info (key ▸ has) here
  · intro request env namespaceName zone id info here other
    have key : info.zoneKey ≠ request.zoneKey := by
      intro eq
      rw [DiscoveryManagerRequest.zoneKey, namespaceName, zone] at eq
      exact other (zoneOwn id info here eq.symm)
    have applied := onApply_applied serialises request env r
    generalize onApply serialises request env r = out at applied
    cases applied with
    | schema p hp => exact Plan.run_preserves (zone_stays cat (schemaPlan_step hp) here key)
    | users p hp =>
      exact ⟨here, Plan.run_otherTag (b := 0x01) (usersPlan_step hp).tagged (by decide) _ rfl⟩
    | configs p hp =>
      exact ⟨here, Plan.run_otherTag (b := 0x01) (configsPlan_step hp).tagged (by decide) _ rfl⟩
    | instances p hp =>
      exact ⟨here, Plan.run_otherTag (b := 0x01) (instancesPlan_step hp).tagged (by decide) _ rfl⟩
    | unknown => exact ⟨here, rfl⟩
  · intro request env op namespaceName zone owner free works fits
    rw [← namespaceName] at owner
    refine createZone_success op owner ?_ works fits
    cases found : r.memory.schema.zones.idMap[request.zoneKey]? with
    | none => rfl
    | some id =>
      obtain ⟨info, here, key, _⟩ := cat.zones.registry.lookup found
      rw [DiscoveryManagerRequest.zoneKey, namespaceName, zone] at key
      exact absurd (zoneOwn id info here key.symm) (free id info here)

/-- The separator is the byte 0x01, and the server lets it into names: keys tell names
apart, and names address their own, exactly where no name is cut in two ways. -/
theorem names_unambiguous_iff (h : Reachable serialises ok r) (a : QualifiedName) :
    (∀ b, KeysApart a b ↔
      ¬ ZonesAmbiguous a.namespaceName a.zoneName b.namespaceName b.zoneName ∧
        ¬ ServletsAmbiguous a b) ∧
    (AddressesOwn serialises r a ↔ NoneAmbiguous r a) :=
  ⟨fun _ => keysApart_iff, noneAmbiguous_of_addressesOwn h, addressesOwn_of_noneAmbiguous h⟩

theorem noneAmbiguous_of_plain {a : QualifiedName} (hn : 0x01 ∉ a.namespaceName)
    (hz : 0x01 ∉ a.zoneName) (hs : 0x01 ∉ a.servletName) : NoneAmbiguous r a where
  zone _ _ _ := not_zonesAmbiguous hn hz
  servlet _ _ _ _ _ := not_servletsAmbiguous hn hz hs
  zoneInstance _ _ _ _ := not_zonesAmbiguous hn hz
  servletInstance _ _ _ _ := not_servletsAmbiguous hn hz hs

def separatorEvents : List DiscoveryEvent :=
  [namespaceEvent "shop", namespaceEvent "shop\x01east",
    zoneEvent .opCreateZone "shop\x01east" "till"]

theorem plain_name_addresses_own : ∃ r, Reachable (fun _ => true) (fun _ _ => True) r ∧
    separatorEvents.foldlM (Replica.step fun _ => true) {} = some r ∧
    AddressesOwn (fun _ => true) r ⟨ascii "shop", ascii "east", ascii "cart"⟩ := by
  have runs : (separatorEvents.foldlM (Replica.step fun _ => true) {}).isSome = true := by decide
  obtain ⟨r, hr⟩ := Option.isSome_iff_exists.mp runs
  have reached : Reachable (fun _ => true) (fun _ _ => True) r := Reach.From.of_foldlM (by simp) hr
  exact ⟨r, reached, hr, (names_unambiguous_iff reached _).2.mpr
    (noneAmbiguous_of_plain (by decide) (by decide) (by decide))⟩

/-- The zone of one namespace is found under a name in another one. -/
theorem zone_of_other_namespace :
    ¬ ∀ r, Reachable (fun _ => true) (fun _ _ => True) r →
      ∀ a : QualifiedName, (∀ b, KeysApart a b) ∧ AddressesOwn (fun _ => true) r a := by
  intro unambiguous
  let a : QualifiedName := ⟨ascii "shop", ascii "east\x01till", ascii "cart"⟩
  have run : (separatorEvents.foldlM (Replica.step fun _ => true) {}).map (fun r =>
      (r.memory.schema.zones.idMap[a.zoneKey]?,
        (r.memory.schema.zones.infoMap[1]?).map ZoneInfo.namespaceName)) =
      some (some 1, some (ascii "shop\x01east")) := by decide
  obtain ⟨r, hr, eq⟩ := Option.map_eq_some_iff.mp run
  obtain ⟨found, eq⟩ := Prod.mk.inj eq
  obtain ⟨info, here, name⟩ := Option.map_eq_some_iff.mp eq
  have reached : Reachable (fun _ => true) (fun _ _ => True) r := Reach.From.of_foldlM (by simp) hr
  obtain ⟨_, own⟩ := unambiguous r reached a
  have same := (own.zone 1 info found here).1
  rw [name] at same
  exact absurd same (by decide)

end EA
