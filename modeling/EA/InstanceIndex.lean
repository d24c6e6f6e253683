import EA.DiscoveryQuery
import EA.DiscoveryRuns
import EA.Lib.Mirror
import EA.Lib.Replay

namespace EA

open ByteString

variable {serialises : MetaValue → Bool}

theorem zoneKey_eq_iff {info : ServletInstance} (plain : info.Plain) {namespaceName zone : Bytes}
    (h : 0x01 ∉ namespaceName) :
    info.zoneKey = makeZoneKey namespaceName zone ↔
      info.namespaceName = namespaceName ∧ info.zoneName = zone := by
  refine ⟨fun eq => makeZoneKey_inj plain.1 h eq, fun eq => ?_⟩
  rw [ServletInstance.zoneKey, eq.1, eq.2]

theorem servletKey_eq_iff {info : ServletInstance} (plain : info.Plain)
    {namespaceName zone servlet : Bytes} (hn : 0x01 ∉ namespaceName) (hz : 0x01 ∉ zone) :
    info.servletKey = makeServletKey (makeZoneKey namespaceName zone) servlet ↔
      info.namespaceName = namespaceName ∧ info.zoneName = zone ∧ info.servletName = servlet := by
  refine ⟨fun eq => makeServletKey_inj plain.1 hn plain.2.1 hz eq, fun eq => ?_⟩
  rw [ServletInstance.servletKey, ServletInstance.zoneKey, eq.1, eq.2.1, eq.2.2]

/-- An address is in the set of a namespace, zone or servlet exactly when it is
registered there. -/
structure IndexesExact (m : InstanceManager) : Prop where
  namespaces : Index.Exact ServletInstance.namespaceName m.namespaceInstance m.instanceInfo
  zones : Index.Exact ServletInstance.zoneKey m.zoneInstance m.instanceInfo
  servlets : Index.Exact ServletInstance.servletKey m.servletInstance m.instanceInfo

structure InstancesKept (db : MetaDb) (m : InstanceManager) : Prop where
  addressed : ∀ (a : Bytes) (info : ServletInstance), m.instanceInfo[a]? = some info →
    info.address = a
  plain : ∀ (a : Bytes) (info : ServletInstance), m.instanceInfo[a]? = some info → info.Plain
  indexes : IndexesExact m
  mirror : Mirror constructInstanceKey MetaValue.instanceInfo m.instanceInfo db
  recorded : ∀ (key : Bytes) (value : MetaValue), discoveryIdentify.isPrefixOf key = true →
    db[key]? = some value → ∃ address, constructInstanceKey address = key

/-- The registered instances are the recorded ones. -/
structure InstancesMirrored (db : MetaDb) (m : InstanceManager) : Prop where
  addressed : ∀ (a : Bytes) (info : ServletInstance), m.instanceInfo[a]? = some info →
    info.address = a
  mirror : Mirror constructInstanceKey MetaValue.instanceInfo m.instanceInfo db
  recorded : ∀ (key : Bytes) (value : MetaValue), discoveryIdentify.isPrefixOf key = true →
    db[key]? = some value → ∃ address, constructInstanceKey address = key

theorem InstancesKept.mirrored {db : MetaDb} {m : InstanceManager} (h : InstancesKept db m) :
    InstancesMirrored db m :=
  ⟨h.addressed, h.mirror, h.recorded⟩

theorem instancesMirrored_empty : InstancesMirrored ∅ {} where
  addressed := by simp
  mirror := Mirror.empty
  recorded := by simp

theorem InstancesMirrored.frame {db db' : MetaDb} {m : InstanceManager}
    (same : SameRecords discoveryIdentify db db') (h : InstancesMirrored db m) :
    InstancesMirrored db' m where
  addressed := h.addressed
  mirror := h.mirror.frame fun _ => same _ rfl
  recorded key value here hv := by
    rw [same key here] at hv
    exact h.recorded key value here hv

theorem InstancesMirrored.set {db : MetaDb} {m : InstanceManager} (h : InstancesMirrored db m)
    (info : ServletInstance) :
    InstancesMirrored (db.insert (constructInstanceKey info.address) (.instanceInfo info))
      (m.setInstanceInfo info) where
  addressed a info' found := by
    rcases Table.lookup_insert_some found with ⟨eq, rfl⟩ | ⟨_, found⟩
    · exact eq
    · exact h.addressed a info' found
  mirror := h.mirror.insert constructInstanceKey_injective info.address info
  recorded key value here hv := by
    rcases Table.lookup_insert_some hv with ⟨eq, _⟩ | ⟨_, hv⟩
    · exact ⟨info.address, eq⟩
    · exact h.recorded key value here hv

theorem InstancesMirrored.drop {db : MetaDb} {m : InstanceManager} (h : InstancesMirrored db m)
    (now : Int) (address : Bytes) :
    InstancesMirrored (db.erase (constructInstanceKey address))
      (m.removeInstanceInfo now address) where
  addressed a info found := h.addressed a info (Table.lookup_erase_some found).2
  mirror := h.mirror.erase constructInstanceKey_injective address
  recorded key value here hv := h.recorded key value here (Table.lookup_erase_some hv).2

theorem indexesExact_empty : IndexesExact {} :=
  ⟨Index.exact_empty _, Index.exact_empty _, Index.exact_empty _⟩

theorem instancesKept_empty : InstancesKept ∅ {} where
  addressed := by simp
  plain := by simp
  indexes := indexesExact_empty
  mirror := Mirror.empty
  recorded := by simp

theorem InstancesKept.frame {db db' : MetaDb} {m : InstanceManager}
    (same : SameRecords discoveryIdentify db db') (h : InstancesKept db m) :
    InstancesKept db' m :=
  have framed := h.mirrored.frame same
  ⟨h.addressed, h.plain, h.indexes, framed.mirror, framed.recorded⟩

theorem ServletInstance.keys_of_samePlace {m : InstanceManager} {info : ServletInstance}
    (same : ∀ old, m.instanceInfo[info.address]? = some old → info.SamePlace old) :
    ∀ old, m.instanceInfo[info.address]? = some old →
      old.namespaceName = info.namespaceName ∧ old.zoneKey = info.zoneKey ∧
        old.servletKey = info.servletKey := by
  intro old found
  obtain ⟨_, hn, hz, hs⟩ := same old found
  have zone : old.zoneKey = info.zoneKey := by
    rw [ServletInstance.zoneKey, ServletInstance.zoneKey, hn, hz]
  refine ⟨hn.symm, zone, ?_⟩
  rw [ServletInstance.servletKey, ServletInstance.servletKey, zone, hs]

/-- An info is set for a new address, or again where it was. -/
theorem IndexesExact.set {m : InstanceManager} (h : IndexesExact m) {info : ServletInstance}
    (same : ∀ old, m.instanceInfo[info.address]? = some old → info.SamePlace old) :
    IndexesExact (m.setInstanceInfo info) :=
  have names := ServletInstance.keys_of_samePlace same
  ⟨h.namespaces.insert fun old found => (names old found).1,
    h.zones.insert fun old found => (names old found).2.1,
    h.servlets.insert fun old found => (names old found).2.2⟩

theorem InstancesKept.set {db : MetaDb} {m : InstanceManager} (h : InstancesKept db m)
    {info : ServletInstance} (plain : info.Plain)
    (same : ∀ old, m.instanceInfo[info.address]? = some old → info.SamePlace old) :
    InstancesKept (db.insert (constructInstanceKey info.address) (.instanceInfo info))
      (m.setInstanceInfo info) := by
  have written := h.mirrored.set info
  refine ⟨written.addressed, ?_, h.indexes.set same, written.mirror, written.recorded⟩
  intro a info' found
  rcases Table.lookup_insert_some found with ⟨_, rfl⟩ | ⟨_, found⟩
  · exact plain
  · exact h.plain a info' found

/-- The only registered instance of its namespace is also the only one of its zone
and of its servlet, so the sets that are erased hold nothing else. -/
theorem InstancesKept.drop {db : MetaDb} {m : InstanceManager} (h : InstancesKept db m)
    {address : Bytes} {info : ServletInstance} (found : m.instanceInfo[address]? = some info)
    (alone : ∀ b other, m.instanceInfo[b]? = some other →
      other.namespaceName = info.namespaceName → b = address) (now : Int) :
    InstancesKept (db.erase (constructInstanceKey address)) (m.removeInstanceInfo now address) := by
  have read : m.instanceInfo.getD address default = info := by
    rw [Table.getD_eq, found]
    rfl
  have hinfo := h.plain address info found
  have indexes : IndexesExact (m.removeInstanceInfo now address) := by
    rw [InstanceManager.removeInstanceInfo, read]
    refine ⟨h.indexes.namespaces.erase found alone, h.indexes.zones.erase found ?_,
      h.indexes.servlets.erase found ?_⟩
    · intro b other hb eq
      exact alone b other hb ((zoneKey_eq_iff (h.plain b other hb) hinfo.1).mp eq).1
    · intro b other hb eq
      exact alone b other hb ((servletKey_eq_iff (h.plain b other hb) hinfo.1 hinfo.2.1).mp eq).1
  have erased := h.mirrored.drop now address
  refine ⟨erased.addressed, ?_, indexes, erased.mirror, erased.recorded⟩
  exact fun a info' hf => h.plain a info' (Table.lookup_erase_some hf).2

/-- The names of instance requests hold no separator, and an instance is dropped
only while no other one is registered in its namespace. -/
def InstanceSafe (r : Replica) : DiscoveryEvent → Prop
  | .apply request env =>
    request.instanceInfo.Plain ∧
    (request.opType = .opDropInstance → env.dbOk = true →
      ∀ info, r.memory.instances.instanceInfo[request.instanceInfo.address]? = some info →
      ∀ (b : Bytes) (other : ServletInstance), r.memory.instances.instanceInfo[b]? = some other →
        other.namespaceName = info.namespaceName → b = request.instanceInfo.address)
  | .reload => True
  | .restart => True

theorem instancesKept_step {request : DiscoveryManagerRequest} {env : Env} {r : Replica}
    {p : Plan InstanceManager} (h : InstancesKept r.db r.memory.instances)
    (safe : InstanceSafe r (.apply request env))
    (step : InstanceStep request env.now r.memory.instances p) :
    InstancesKept (p.run serialises env.dbOk r.db).1.1 (p.run serialises env.dbOk r.db).1.2 := by
  obtain ⟨plain, alone⟩ := safe
  cases step with
  | refused => exact h
  | added info op place absent =>
    obtain ⟨address, hn, hz, hs⟩ := place
    have names : info.Plain := by
      rw [ServletInstance.Plain, hn, hz, hs]
      exact plain
    rw [← address] at absent ⊢
    refine Plan.run_write_preserves h fun _ _ => h.set names ?_
    intro old found
    rw [absent] at found
    simp at found
  | dropped info op found =>
    refine Plan.run_write_preserves h fun _ works => ?_
    exact h.drop found (alone op works info found) env.now
  | updated old info op found place =>
    have address : info.address = request.instanceInfo.address :=
      place.1.trans (h.addressed _ old found)
    have names : info.Plain := by
      rw [ServletInstance.Plain, place.2.1, place.2.2.1, place.2.2.2]
      exact h.plain _ old found
    rw [← address] at found ⊢
    refine Plan.run_write_preserves h fun _ _ => h.set names ?_
    intro old' found'
    cases Option.some.inj (found.symm.trans found')
    exact place

/-- The records give the registered instances and their indexes back. -/
theorem loadInstances_eq {db : MetaDb} {m : InstanceManager} (h : InstancesMirrored db m) :
    ∃ m', loadInstances db = some m' ∧ m'.instanceInfo = m.instanceInfo ∧ IndexesExact m' := by
  let read : InstanceManager → Bytes × ServletInstance → InstanceManager := fun m e =>
    m.setInstanceInfo e.2
  have reads : ∀ (m : InstanceManager) (e : Bytes × ServletInstance), loadInstanceSnapshot m
      (constructInstanceKey e.1, .instanceInfo e.2) = some (read m e) := fun _ _ => rfl
  obtain ⟨rs, listed, loaded⟩ := Replay.scan_mirror constructInstanceKey_injective
    (fun _ _ => MetaValue.instanceInfo.inj) h.mirror (fun _ => rfl) h.recorded reads {}
  -- while records are read, every info set so far is a registered one
  have folded : ∀ (es : List (Bytes × ServletInstance)) (m₀ : InstanceManager),
      (∀ e ∈ es, e ∈ rs) → IndexesExact m₀ →
      (∀ (a : Bytes) (info : ServletInstance), m₀.instanceInfo[a]? = some info →
        m.instanceInfo[a]? = some info) →
      IndexesExact (es.foldl read m₀) ∧ (es.foldl read m₀).instanceInfo =
        Table.insertAll (fun e => e.2.address) Prod.snd es m₀.instanceInfo := by
    intro es
    induction es with
    | nil => exact fun m₀ _ exact _ => ⟨exact, rfl⟩
    | cons e es ih =>
      intro m₀ sub exact known
      have mem := (listed e).mp (sub e (by simp))
      have address := h.addressed e.1 e.2 mem
      refine ih (read m₀ e) (fun e' he => sub e' (List.mem_cons_of_mem _ he)) ?_ ?_
      · refine exact.set fun old found => ?_
        have same := known e.2.address old found
        rw [address, mem] at same
        cases Option.some.inj same
        exact ⟨rfl, rfl, rfl, rfl⟩
      · intro a info found
        rcases Table.lookup_insert_some found with ⟨rfl, rfl⟩ | ⟨_, found⟩
        · rw [address]
          exact mem
        · exact known a info found
  obtain ⟨exact, infos⟩ := folded rs {} (fun _ he => he) indexesExact_empty (by simp)
  refine ⟨_, loaded, ?_, exact⟩
  rw [infos]
  apply Table.insertAll_eq
  intro a info
  refine ⟨fun found => ?_, fun found => ?_⟩
  · exact ⟨(a, info), (listed _).mpr found, h.addressed a info found, rfl⟩
  · obtain ⟨e, he, rfl, rfl⟩ := found
    have mem := (listed e).mp he
    rw [h.addressed e.1 e.2 mem]
    exact mem

theorem flattenIndexed_perm {m : InstanceManager} {f : ServletInstance → Bytes}
    {index : Index Bytes Bytes} (exact : Index.Exact f index m.instanceInfo) (order : HashOrder)
    (key errmsg : Bytes) :
    (flattenIndexed order m index key errmsg).flattenInstances.Perm
      ((m.instanceInfo.vals.filter fun info => f info = key).map instanceInfoToQuery) := by
  let look : Bytes → QueryInstance := fun a => instanceInfoToQuery (m.instanceInfo.getD a default)
  have answer : (flattenIndexed order m index key errmsg).flattenInstances.Perm
      ((index.members key).toList.map look) := by
    unfold flattenIndexed
    split
    next none =>
      rw [Index.members_of_none none]
      rfl
    next addresses found =>
      rw [Index.members, Table.getD_eq, found]
      exact (order.walk_perm addresses.toList).map look
  have values : ((m.instanceInfo.toList.filter fun e => f e.2 = key).map Prod.fst).map look =
      (m.instanceInfo.vals.filter fun info => f info = key).map instanceInfoToQuery := by
    rw [Table.vals, List.filter_map, List.map_map, List.map_map]
    apply List.map_congr_left
    intro e he
    have found := Std.ExtTreeMap.mem_toList_iff_getElem?_eq_some.mp (List.mem_of_mem_filter he)
    have read : m.instanceInfo.getD e.1 default = e.2 := by
      rw [Table.getD_eq, found]
      rfl
    exact congrArg instanceInfoToQuery read
  rw [← values]
  exact answer.trans ((exact.perm key).map look)

/-- The instances that a query asks for. An empty name filters nothing, nor do the
names below it. -/
def Matches (request : DiscoveryQueryRequest) (info : ServletInstance) : Prop :=
  request.namespaceName.getD [] = [] ∨
    info.namespaceName = request.namespaceName.getD [] ∧
      (request.zone.getD [] = [] ∨
        info.zoneName = request.zone.getD [] ∧
          (request.servlet.getD [] = [] ∨ info.servletName = request.servlet.getD []))

instance (request : DiscoveryQueryRequest) (info : ServletInstance) :
    Decidable (Matches request info) := by
  unfold Matches
  infer_instance

theorem queryInstanceFlatten_perm {m : InstanceManager} (exact : IndexesExact m)
    (plain : ∀ (a : Bytes) (info : ServletInstance), m.instanceInfo[a]? = some info → info.Plain)
    (order : HashOrder) (request : DiscoveryQueryRequest)
    (hn : 0x01 ∉ request.namespaceName.getD []) (hz : 0x01 ∉ request.zone.getD []) :
    (queryInstanceFlatten order request m).flattenInstances.Perm
      ((m.instanceInfo.vals.filter fun info => Matches request info).map instanceInfoToQuery) := by
  have registered : ∀ info ∈ m.instanceInfo.vals, info.Plain := by
    intro info mem
    obtain ⟨e, listed, rfl⟩ := List.mem_map.mp mem
    exact plain e.1 e.2 (Std.ExtTreeMap.mem_toList_iff_getElem?_eq_some.mp listed)
  have narrow : ∀ {p : ServletInstance → Prop} [DecidablePred p],
      (∀ info ∈ m.instanceInfo.vals, p info ↔ Matches request info) →
      (m.instanceInfo.vals.filter fun info => p info) =
        m.instanceInfo.vals.filter fun info => Matches request info := by
    intro p _ same
    exact List.filter_congr fun info mem => decide_eq_decide.mpr (same info mem)
  unfold queryInstanceFlatten
  dsimp only
  split
  next everywhere =>
    have all : (m.instanceInfo.vals.filter fun info => Matches request info) =
        m.instanceInfo.vals := by
      rw [List.filter_eq_self]
      exact fun info _ => decide_eq_true (Or.inl everywhere)
    rw [all]
    exact (order.walk_perm m.instanceInfo.vals).map instanceInfoToQuery
  next named =>
    split
    next anyZone =>
      refine (flattenIndexed_perm exact.namespaces order _ _).trans (.of_eq ?_)
      rw [narrow]
      intro info _
      simp [Matches, named, anyZone]
    next zoned =>
      split
      next anyServlet =>
        refine (flattenIndexed_perm exact.zones order _ _).trans (.of_eq ?_)
        rw [narrow]
        intro info mem
        rw [zoneKey_eq_iff (registered info mem) hn]
        simp [Matches, named, zoned, anyServlet]
      next served =>
        refine (flattenIndexed_perm exact.servlets order _ _).trans (.of_eq ?_)
        rw [narrow]
        intro info mem
        rw [servletKey_eq_iff (registered info mem) hn hz]
        simp [Matches, named, zoned, served]

/-- The indexes are exact, queries answer with the registered instances that match,
and a load of the database rebuilds the same indexes. -/
structure InstancesConsistent (r : Replica) : Prop where
  exact : IndexesExact r.memory.instances
  answers : ∀ (order : HashOrder) (request : DiscoveryQueryRequest),
    0x01 ∉ request.namespaceName.getD [] → 0x01 ∉ request.zone.getD [] →
    (queryInstanceFlatten order request r.memory.instances).flattenInstances.Perm
      ((r.memory.instances.instanceInfo.vals.filter fun info => Matches request info).map
        instanceInfoToQuery)
  rebuilt : ∃ m, loadInstances r.db = some m ∧
    m.instanceInfo = r.memory.instances.instanceInfo ∧ ∀ key : Bytes,
      m.namespaceInstance.members key = r.memory.instances.namespaceInstance.members key ∧
      m.zoneInstance.members key = r.memory.instances.zoneInstance.members key ∧
      m.servletInstance.members key = r.memory.instances.servletInstance.members key

theorem reachable_instancesKept {r : Replica} (h : Reachable serialises InstanceSafe r) :
    InstancesKept r.db r.memory.instances := by
  refine instances_invariant instancesKept_empty ?_ ?_ ?_ h
  · exact fun same kept => kept.frame same
  · intro r request env p kept safe hp
    exact instancesKept_step kept safe (instancesPlan_step hp)
  · intro db m m' kept load
    obtain ⟨m'', loaded, infos, exact⟩ := loadInstances_eq kept.mirrored
    rw [loaded] at load
    cases Option.some.inj load
    refine ⟨?_, ?_, exact, ?_, kept.recorded⟩
    · rw [infos]
      exact kept.addressed
    · rw [infos]
      exact kept.plain
    · rw [infos]
      exact kept.mirror

theorem instances_consistent {r : Replica} (h : Reachable serialises InstanceSafe r) :
    InstancesConsistent r := by
  have kept := reachable_instancesKept h
  obtain ⟨m, loaded, infos, exact⟩ := loadInstances_eq kept.mirrored
  refine ⟨kept.indexes, queryInstanceFlatten_perm kept.indexes kept.plain, m, loaded, infos, ?_⟩
  have namespaces := exact.namespaces
  have zones := exact.zones
  have servlets := exact.servlets
  rw [infos] at namespaces zones servlets
  intro key
  exact ⟨kept.indexes.namespaces.members_eq namespaces key,
    kept.indexes.zones.members_eq zones key, kept.indexes.servlets.members_eq servlets key⟩

instance (r : Replica) (e : DiscoveryEvent) : Decidable (InstanceSafe r e) :=
  match e with
  | .reload => .isTrue trivial
  | .restart => .isTrue trivial
  | .apply request env =>
    decidable_of_iff (request.instanceInfo.Plain ∧
        (request.opType = .opDropInstance → env.dbOk = true →
          ∀ info ∈ r.memory.instances.instanceInfo[request.instanceInfo.address]?,
          ∀ other ∈ r.memory.instances.instanceInfo.toList,
            other.2.namespaceName = info.namespaceName → other.1 = request.instanceInfo.address)) <| by
      refine and_congr_right fun _ => ?_
      refine ⟨fun alone op works info found b other here => ?_,
        fun alone op works info found other here => ?_⟩
      · exact alone op works info found (b, other)
          (Std.ExtTreeMap.mem_toList_iff_getElem?_eq_some.mpr here)
      · exact alone op works info found other.1 other.2
          (Std.ExtTreeMap.mem_toList_iff_getElem?_eq_some.mp here)

def createEvents (namespaceName : String) : List DiscoveryEvent :=
  [.apply { opType := .opCreateNamespace, namespaceInfo := { namespaceName := ascii namespaceName } }
      ⟨0, true⟩,
    .apply { opType := .opCreateZone,
             zoneInfo := { namespaceName := ascii namespaceName, zone := ascii "east" } } ⟨0, true⟩,
    .apply { opType := .opCreateServlet,
             servletInfo := { namespaceName := ascii namespaceName, zone := ascii "east",
                              servletName := ascii "cart" } } ⟨0, true⟩]

def instanceEvent (opType : OpType) (namespaceName address : String) : DiscoveryEvent :=
  .apply { opType := opType, instanceInfo := {
    address := ascii address, namespaceName := ascii namespaceName, zoneName := ascii "east",
    servletName := ascii "cart" } } ⟨0, true⟩

/-- Two instances in one namespace, one in another that is dropped again. -/
def instanceEvents : List DiscoveryEvent :=
  createEvents "shop" ++ createEvents "mart" ++
    [instanceEvent .opAddInstance "shop" "a", instanceEvent .opAddInstance "shop" "b",
      instanceEvent .opAddInstance "mart" "c", instanceEvent .opUpdateInstance "shop" "a",
      instanceEvent .opDropInstance "mart" "c"]

theorem instances_consistent_after_drop :
    ∃ r, instanceEvents.foldlM
        (fun r e => if InstanceSafe r e then Replica.step (fun _ => true) r e else none) {} = some r ∧
      InstancesConsistent r ∧ r.memory.instances.instanceInfo.keys = [ascii "a", ascii "b"] := by
  have run : (instanceEvents.foldlM
      (fun r e => if InstanceSafe r e then Replica.step (fun _ => true) r e else none) {}).map
        (fun r => r.memory.instances.instanceInfo.keys) = some [ascii "a", ascii "b"] := by decide
  obtain ⟨r, hr, keys⟩ := Option.map_eq_some_iff.mp run
  exact ⟨r, hr, instances_consistent (Reach.From.of_checked hr), keys⟩

def shopQuery : DiscoveryQueryRequest :=
  { opType := .queryInstanceFlatten, namespaceName := some (ascii "shop") }

/-- After one of two instances is dropped, a query of their namespace finds none. -/
theorem drop_hides_neighbour :
    ¬ ∀ r, Reachable (fun _ => true) (fun _ e => PlainNames e) r → InstancesConsistent r := by
  intro consistent
  have run : ((createEvents "shop" ++ [instanceEvent .opAddInstance "shop" "a",
      instanceEvent .opAddInstance "shop" "b", instanceEvent .opDropInstance "shop" "a"]).foldlM
        (fun r e => if PlainNames e then Replica.step (fun _ => true) r e else none) {}).map
      (fun r =>
        ((queryInstanceFlatten .keyOrder shopQuery r.memory.instances).flattenInstances.length,
          (r.memory.instances.instanceInfo.vals.filter fun info => Matches shopQuery info).length)) =
      some (0, 1) := by decide
  obtain ⟨r, hr, eq⟩ := Option.map_eq_some_iff.mp run
  obtain ⟨answered, registered⟩ := Prod.mk.inj eq
  have perm := (consistent r (Reach.From.of_checked hr)).answers .keyOrder shopQuery (by decide)
    (by decide)
  have length := perm.length_eq
  rw [List.length_map, answered, registered] at length
  exact absurd length (by decide)

end EA
