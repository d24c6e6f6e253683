import EA.DiscoveryRuns
import EA.InstanceIndex
import EA.Lib.Lockstep

namespace EA

open ByteString

variable {serialises : MetaValue → Bool}

/-- Instance managers that differ at most in when an address was removed. -/
structure InstanceManager.Alike (m m' : InstanceManager) : Prop where
  instanceInfo : m'.instanceInfo = m.instanceInfo
  namespaceInstance : m'.namespaceInstance = m.namespaceInstance
  zoneInstance : m'.zoneInstance = m.zoneInstance
  servletInstance : m'.servletInstance = m.servletInstance
  removedInstance : ∀ address, address ∈ m'.removedInstance ↔ address ∈ m.removedInstance

/-- Replicas with the same namespaces, zones, servlets, instances, users and configs. -/
structure Replica.Alike (r r' : Replica) : Prop where
  db : r'.db = r.db
  schema : r'.memory.schema = r.memory.schema
  users : r'.memory.users = r.memory.users
  configs : r'.memory.configs = r.memory.configs
  instances : r.memory.instances.Alike r'.memory.instances

/-- An entry with the time at which a replica applies it. -/
abbrev TimedEntry := DiscoveryManagerRequest × Int

/-- One entry applied without a database failure, with whether it was accepted. -/
def applyEntry (serialises : MetaValue → Bool) (r : Replica) (e : TimedEntry) : Replica × Bool :=
  let out := onApply serialises e.1 ⟨e.2, true⟩ r
  (out.1, out.2.errcode = .success)

/-- Two replicas that apply the log at any times of their own accept and reject
the same entries and end alike. -/
def ReplicasAgree (serialises : MetaValue → Bool) (log : List DiscoveryManagerRequest) : Prop :=
  ∀ timed timed' : List TimedEntry, timed.map Prod.fst = log → timed'.map Prod.fst = log →
    (Run.all (applyEntry serialises) {} timed).2 = (Run.all (applyEntry serialises) {} timed').2 ∧
      (Run.all (applyEntry serialises) {} timed).1.Alike
        (Run.all (applyEntry serialises) {} timed').1

/-- The entry registers an address that was removed before, and only the hour since
its removal can stand in the way. -/
def AddsRemoved (serialises : MetaValue → Bool) (r : Replica) (request : DiscoveryManagerRequest) :
    Prop :=
  request.opType = .opAddInstance ∧
    request.instanceInfo.address ∈ r.memory.instances.removedInstance ∧
    r.memory.instances.instanceInfo[request.instanceInfo.address]? = none ∧
    ∃ checked, checkAndGetForInstance r.memory.schema request.instanceInfo = some checked ∧
      serialises (.instanceInfo { checked with version := 1 }) = true

theorem InstanceManager.Alike.setInstanceInfo {m m' : InstanceManager} (h : m.Alike m')
    (info : ServletInstance) : (m.setInstanceInfo info).Alike (m'.setInstanceInfo info) where
  instanceInfo := by simp only [InstanceManager.setInstanceInfo, h.instanceInfo]
  namespaceInstance := by simp only [InstanceManager.setInstanceInfo, h.namespaceInstance]
  zoneInstance := by simp only [InstanceManager.setInstanceInfo, h.zoneInstance]
  servletInstance := by simp only [InstanceManager.setInstanceInfo, h.servletInstance]
  removedInstance address := by
    simp only [InstanceManager.setInstanceInfo, Std.ExtTreeMap.mem_erase, h.removedInstance]

theorem InstanceManager.Alike.removeInstanceInfo {m m' : InstanceManager} (h : m.Alike m')
    (now now' : Int) (address : Bytes) :
    (m.removeInstanceInfo now address).Alike (m'.removeInstanceInfo now' address) where
  instanceInfo := by simp only [InstanceManager.removeInstanceInfo, h.instanceInfo]
  namespaceInstance := by
    simp only [InstanceManager.removeInstanceInfo, h.instanceInfo, h.namespaceInstance]
  zoneInstance := by simp only [InstanceManager.removeInstanceInfo, h.instanceInfo, h.zoneInstance]
  servletInstance := by
    simp only [InstanceManager.removeInstanceInfo, h.instanceInfo, h.servletInstance]
  removedInstance other := by
    simp only [InstanceManager.removeInstanceInfo, Std.ExtTreeMap.mem_insert, h.removedInstance]

/-- Plans that end alike whatever becomes of their write. -/
def Plan.EndAlike (serialises : MetaValue → Bool) (p p' : Plan InstanceManager) : Prop :=
  ∀ db, (p'.run serialises true db).1.1 = (p.run serialises true db).1.1 ∧
    (p.run serialises true db).1.2.Alike (p'.run serialises true db).1.2 ∧
    ((p'.run serialises true db).2.errcode = .success ↔
      (p.run serialises true db).2.errcode = .success)

theorem Plan.EndAlike.refuse {m m' : InstanceManager} (alike : m.Alike m') (errcode : ErrCode)
    (errmsg : String) :
    Plan.EndAlike serialises (.refuse errcode errmsg m) (.refuse errcode errmsg m') :=
  fun _ => ⟨rfl, alike, Iff.rfl⟩

theorem Plan.EndAlike.write {touched touched' m m' : InstanceManager}
    (before : touched.Alike touched') (after : m.Alike m') (value : Option MetaValue)
    (batch : List BatchOp) (dbError : String) :
    Plan.EndAlike serialises (.write value batch dbError touched m)
      (.write value batch dbError touched' m') := by
  intro db
  cases fits : value.any fun v => !serialises v with
  | true =>
    simp only [Plan.run, fits]
    exact ⟨rfl, before, Iff.rfl⟩
  | false =>
    simp only [Plan.run, fits]
    exact ⟨rfl, after, Iff.rfl⟩

/-- A plan that changes nothing and is not accepted. -/
def Plan.Rejects (serialises : MetaValue → Bool) (m : InstanceManager) (p : Plan InstanceManager) :
    Prop :=
  ∀ db, (p.run serialises true db).1 = (db, m) ∧ (p.run serialises true db).2.errcode ≠ .success

theorem Plan.EndAlike.of_rejects {m m' : InstanceManager} (alike : m.Alike m')
    {p p' : Plan InstanceManager} (h : p.Rejects serialises m) (h' : p'.Rejects serialises m') :
    Plan.EndAlike serialises p p' := by
  intro db
  obtain ⟨left, code⟩ := h db
  obtain ⟨left', code'⟩ := h' db
  rw [left, left']
  exact ⟨rfl, alike, iff_of_false code' code⟩

theorem addInstance_rejects {request : DiscoveryManagerRequest} {now : Int} {s : Schema}
    {m : InstanceManager} (unfit : ∀ checked, checkAndGetForInstance s request.instanceInfo =
      some checked → serialises (.instanceInfo { checked with version := 1 }) = false) :
    (addInstance request now s m).Rejects serialises m := by
  intro db
  unfold addInstance
  dsimp only
  split
  next => simp [Plan.run]
  next checked ok =>
    split
    next => simp [Plan.run]
    next =>
      split
      next => simp [Plan.run]
      next => simp [Plan.run, unfit checked ok]

theorem removedInOneHour_of_not_mem {m : InstanceManager} {now : Int} {address : Bytes}
    (absent : address ∉ m.removedInstance) : m.removedInOneHour now address = false := by
  have none : m.removedInstance[address]? = none := by
    cases found : m.removedInstance[address]? with
    | none => rfl
    | some start => exact absurd (Table.mem_iff_lookup.mpr ⟨start, found⟩) absent
  rw [InstanceManager.removedInOneHour, none]
  rfl

theorem addInstance_endAlike {request : DiscoveryManagerRequest} {r : Replica}
    {m' : InstanceManager} (alike : r.memory.instances.Alike m')
    (op : request.opType = .opAddInstance) (fixed : ¬ AddsRemoved serialises r request)
    (now now' : Int) :
    Plan.EndAlike serialises (addInstance request now r.memory.schema r.memory.instances)
      (addInstance request now' r.memory.schema m') := by
  by_cases removed : request.instanceInfo.address ∈ r.memory.instances.removedInstance
  · cases known : r.memory.instances.instanceInfo[request.instanceInfo.address]? with
    | some info =>
      simp only [addInstance, alike.instanceInfo, known]
      split
      next => exact .refuse alike _ _
      next => exact .refuse alike _ _
    | none =>
      have unfit : ∀ checked, checkAndGetForInstance r.memory.schema request.instanceInfo =
          some checked → serialises (.instanceInfo { checked with version := 1 }) = false := by
        intro checked ok
        by_contra fits
        exact fixed ⟨op, removed, known, checked, ok, by simpa using fits⟩
      exact .of_rejects alike (addInstance_rejects unfit) (addInstance_rejects unfit)
  · -- the clock is read only for an address that was removed
    have removed' : request.instanceInfo.address ∉ m'.removedInstance := fun mem =>
      removed ((alike.removedInstance _).mp mem)
    simp only [addInstance, alike.instanceInfo, removedInOneHour_of_not_mem removed,
      removedInOneHour_of_not_mem removed']
    split
    next => exact .refuse alike _ _
    next =>
      split
      next => exact .refuse alike _ _
      next => exact .write alike (alike.setInstanceInfo _) _ _ _

theorem instancesPlan_endAlike {request : DiscoveryManagerRequest} {r : Replica}
    {m' : InstanceManager} (alike : r.memory.instances.Alike m')
    (fixed : ¬ AddsRemoved serialises r request) {now now' : Int} {p : Plan InstanceManager}
    (h : instancesPlan request now r.memory.schema r.memory.instances = some p) :
    ∃ p', instancesPlan request now' r.memory.schema m' = some p' ∧
      Plan.EndAlike serialises p p' := by
  unfold instancesPlan at h
  split at h
  case h_1 op =>
    cases h
    exact ⟨_, by simp only [instancesPlan, op], addInstance_endAlike alike op fixed now now'⟩
  case h_2 op =>
    cases h
    refine ⟨dropInstance request now' m', by simp only [instancesPlan, op], ?_⟩
    simp only [dropInstance, alike.instanceInfo]
    split
    next => exact .refuse alike _ _
    next => exact .write alike (alike.removeInstanceInfo _ _ _) _ _ _
  case h_3 op =>
    cases h
    refine ⟨updateInstance request m', by simp only [instancesPlan, op], ?_⟩
    simp only [updateInstance, alike.instanceInfo]
    split
    next => exact .refuse alike _ _
    next => exact .write alike (alike.setInstanceInfo _) _ _ _
  case h_4 => simp at h

/-- An entry that registers no removed address takes two replicas that are alike to
two that are alike, at any times. -/
theorem applyEntry_alike {r r' : Replica} (alike : r.Alike r') {request : DiscoveryManagerRequest}
    {now now' : Int} (fixed : ¬ AddsRemoved serialises r request) :
    (applyEntry serialises r (request, now)).2 = (applyEntry serialises r' (request, now')).2 ∧
      (applyEntry serialises r (request, now)).1.Alike
        (applyEntry serialises r' (request, now')).1 := by
  have handled := handle_handled request now r.memory
  generalize plan : handle request now r.memory = q at handled
  unfold applyEntry
  dsimp only
  cases handled with
  | schema p h =>
    rw [← alike.schema] at h
    have plan' := handle_of_schemaPlan h now'
    have out : onApply serialises request ⟨now, true⟩ r = _ := onApply_of_handle plan
    have out' : onApply serialises request ⟨now', true⟩ r' = _ := onApply_of_handle plan'
    rw [out, out', alike.db]
    exact ⟨rfl, rfl, rfl, alike.users, alike.configs, alike.instances⟩
  | users p h =>
    rw [← alike.schema, ← alike.users] at h
    have plan' := handle_of_usersPlan h now'
    have out : onApply serialises request ⟨now, true⟩ r = _ := onApply_of_handle plan
    have out' : onApply serialises request ⟨now', true⟩ r' = _ := onApply_of_handle plan'
    rw [out, out', alike.db]
    exact ⟨rfl, rfl, alike.schema, rfl, alike.configs, alike.instances⟩
  | configs p h =>
    rw [← alike.configs] at h
    have plan' := handle_of_configsPlan h now'
    have out : onApply serialises request ⟨now, true⟩ r = _ := onApply_of_handle plan
    have out' : onApply serialises request ⟨now', true⟩ r' = _ := onApply_of_handle plan'
    rw [out, out', alike.db]
    exact ⟨rfl, rfl, alike.schema, alike.users, rfl, alike.instances⟩
  | instances p h =>
    obtain ⟨p', h', ends⟩ := instancesPlan_endAlike alike.instances fixed h
    rw [← alike.schema] at h'
    have plan' := handle_of_instancesPlan h'
    have out : onApply serialises request ⟨now, true⟩ r = _ := onApply_of_handle plan
    have out' : onApply serialises request ⟨now', true⟩ r' = _ := onApply_of_handle plan'
    rw [out, out', alike.db]
    obtain ⟨db, memory, code⟩ := ends r.db
    exact ⟨by simp only [code], db, alike.schema, alike.users, alike.configs, memory⟩
  | unknown h =>
    have other (now : Int) (m : Memory) : handle request now m =
        .refuse .unknownReqType "unknown request type" m := by
      simp only [handle, h]
    simp only [onApply, other, Plan.run]
    exact ⟨trivial, alike⟩

/-- Whether an address that was removed is registered again depends on the clock alone. -/
theorem applyEntry_addsRemoved {r : Replica} {request : DiscoveryManagerRequest}
    (adds : AddsRemoved serialises r request) {start : Int}
    (removed : r.memory.instances.removedInstance[request.instanceInfo.address]? = some start)
    (now : Int) : (applyEntry serialises r (request, now)).2 =
      !decide (InstanceManager.secondsSince start now < 3600) := by
  obtain ⟨op, _, known, checked, ok, fits⟩ := adds
  have hour : r.memory.instances.removedInOneHour now request.instanceInfo.address =
      decide (InstanceManager.secondsSince start now < 3600) := by
    rw [InstanceManager.removedInOneHour, removed]
    rfl
  have plan : handle request now r.memory =
      (addInstance request now r.memory.schema r.memory.instances).map
        fun i => { r.memory with instances := i } := by
    simp only [handle, op]
  have out : onApply serialises request ⟨now, true⟩ r = _ := onApply_of_handle plan
  unfold applyEntry
  dsimp only
  rw [out]
  simp only [addInstance, ok, known, hour]
  by_cases early : InstanceManager.secondsSince start now < 3600
  · simp [early, Plan.run]
  · simp [early, Plan.run, fits]

theorem sameEntries {timed timed' : List TimedEntry} (h : timed.map Prod.fst = timed'.map Prod.fst) :
    List.Forall₂ (fun e d : TimedEntry => e.1 = d.1) timed timed' := by
  have pointwise : List.Forall₂ (· = ·) (timed.map Prod.fst) (timed'.map Prod.fst) := by
    rw [List.forall₂_eq_eq_eq]
    exact h
  rwa [List.forall₂_map_left_iff, List.forall₂_map_right_iff] at pointwise

/-- Replicas agree on a log, whatever their clocks, just when no entry of it adds an
address that was removed before. -/
theorem replicas_agree_iff (serialises : MetaValue → Bool) (log : List DiscoveryManagerRequest) :
    ReplicasAgree serialises log ↔ ∀ timed : List TimedEntry, timed.map Prod.fst = log →
      Run.Throughout (applyEntry serialises) (fun r e => ¬ AddsRemoved serialises r e.1) {}
        timed := by
  constructor
  · rintro agree timed entries pre e rest rfl adds
    obtain ⟨start, removed⟩ := Table.mem_iff_lookup.mp adds.2.1
    -- the same times up to the entry, which one replica applies an hour later
    have same := (agree (pre ++ (e.1, start) :: rest) (pre ++ (e.1, start + 3600000000) :: rest)
      (by simpa using entries) (by simpa using entries)).1
    rw [Run.all_append, Run.all_append] at same
    have here := (List.cons.inj (List.append_cancel_left same)).1
    rw [applyEntry_addsRemoved adds removed, applyEntry_addsRemoved adds removed] at here
    have soon : InstanceManager.secondsSince start start = 0 := by
      simp [InstanceManager.secondsSince]
    have late : InstanceManager.secondsSince start (start + 3600000000) = 3600 := by
      simp [InstanceManager.secondsSince]
    rw [soon, late] at here
    exact absurd here (by decide)
  · intro clear timed timed' entries entries'
    have events := sameEntries (entries.trans entries'.symm)
    have start : Replica.Alike {} {} :=
      ⟨rfl, rfl, rfl, rfl, rfl, rfl, rfl, rfl, fun _ => Iff.rfl⟩
    refine Run.lockstep ?_ events start (clear timed entries)
    rintro r r' ⟨request, now⟩ ⟨_, now'⟩ alike rfl fixed
    exact applyEntry_alike alike fixed

/-- A servlet, an instance of it that is dropped, and the same address again. -/
def readdLog : List DiscoveryManagerRequest :=
  [{ opType := .opCreateNamespace, namespaceInfo := { namespaceName := ascii "shop" } },
    { opType := .opCreateZone,
      zoneInfo := { namespaceName := ascii "shop", zone := ascii "east" } },
    { opType := .opCreateServlet,
      servletInfo := { namespaceName := ascii "shop", zone := ascii "east",
                       servletName := ascii "cart" } }] ++
  [OpType.opAddInstance, .opDropInstance, .opAddInstance].map fun opType =>
    { opType := opType,
      instanceInfo := { address := ascii "a", namespaceName := ascii "shop",
                        zoneName := ascii "east", servletName := ascii "cart" } }

/-- The replica that applies the last entry an hour later accepts it alone. -/
theorem readd_diverges : ¬ ∀ log, ReplicasAgree (fun _ => true) log := by
  intro agree
  have same := (agree readdLog (readdLog.map fun request => (request, 0))
    (readdLog.dropLast.map (fun request => (request, 0)) ++
      readdLog.getLast?.toList.map fun request => (request, 3600000000)) rfl rfl).1
  exact absurd same (by decide)

end EA
