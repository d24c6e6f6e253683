import EA.DiscoveryDirectory
import EA.QualifiedNames

namespace EA

open ByteString

variable {serialises : MetaValue → Bool} {r : Replica}

/-- What an address is to the instance manager. -/
inductive Life where
  | absent
  | live (info : ServletInstance)
  /-- Removed, and not to be registered again for an hour. -/
  | cooling (since : Int)
deriving DecidableEq

def InstanceManager.life (m : InstanceManager) (address : Bytes) : Life :=
  match m.instanceInfo[address]? with
  | some info => .live info
  | none =>
    match m.removedInstance[address]? with
    | some since => .cooling since
    | none => .absent

/-- The info without the numbers that the replica looks up. -/
def ServletInstance.unnumbered (info : ServletInstance) : ServletInstance :=
  { info with namespaceId := 0, zoneId := 0, servletId := 0 }

def Life.unnumbered : Life → Life
  | absent => absent
  | live info => live info.unnumbered
  | cooling since => cooling since

/-- The life that a client concludes from one more event and its answer. -/
def conclude (address : Bytes) (life : Life) (seen : DiscoveryEvent × Answer) : Life :=
  match seen with
  | (.apply request env, .replied reply) =>
    if reply.errcode = .success ∧ request.instanceInfo.address = address then
      match request.opType, life with
      | .opAddInstance, _ => .live { request.instanceInfo.unnumbered with version := 1 }
      | .opDropInstance, _ => .cooling env.now
      | .opUpdateInstance, .live info => .live (updatedInstance request.instanceInfo info)
      | _, life => life
    else life
  | (.reload, .loaded) | (.restart, .loaded) =>
    match life with
    | .cooling _ => .absent
    | life => life
  | _ => life

def concluded (address : Bytes) (seen : List (DiscoveryEvent × Answer)) : Life :=
  seen.foldl (conclude address) .absent

theorem life_of_some {m : InstanceManager} {address : Bytes} {info : ServletInstance}
    (found : m.instanceInfo[address]? = some info) : m.life address = .live info := by
  rw [InstanceManager.life, found]

theorem life_of_none {m : InstanceManager} {address : Bytes}
    (absent : m.instanceInfo[address]? = none) :
    m.life address = match m.removedInstance[address]? with
      | some since => .cooling since
      | none => .absent := by
  rw [InstanceManager.life, absent]

theorem life_set_self (m : InstanceManager) (info : ServletInstance) :
    (m.setInstanceInfo info).life info.address = .live info :=
  life_of_some (Table.lookup_insert_self ..)

theorem life_set_ne (m : InstanceManager) (info : ServletInstance) {address : Bytes}
    (ne : info.address ≠ address) : (m.setInstanceInfo info).life address = m.life address := by
  have infos : (m.setInstanceInfo info).instanceInfo[address]? = m.instanceInfo[address]? :=
    Table.lookup_insert_ne _ _ ne
  have removed : (m.setInstanceInfo info).removedInstance[address]? = m.removedInstance[address]? :=
    Table.lookup_erase_ne _ ne
  rw [InstanceManager.life, InstanceManager.life, infos, removed]

theorem life_remove_self (m : InstanceManager) (now : Int) (address : Bytes) :
    (m.removeInstanceInfo now address).life address = .cooling now := by
  have removed : (m.removeInstanceInfo now address).removedInstance[address]? = some now :=
    Table.lookup_insert_self ..
  rw [life_of_none (Table.lookup_erase_self ..), removed]

theorem life_remove_ne (m : InstanceManager) (now : Int) {address other : Bytes}
    (ne : address ≠ other) : (m.removeInstanceInfo now address).life other = m.life other := by
  have infos : (m.removeInstanceInfo now address).instanceInfo[other]? = m.instanceInfo[other]? :=
    Table.lookup_erase_ne _ ne
  have removed : (m.removeInstanceInfo now address).removedInstance[other]? =
      m.removedInstance[other]? := Table.lookup_insert_ne _ _ ne
  rw [InstanceManager.life, InstanceManager.life, infos, removed]

theorem checkAndGetForInstance_unnumbered {s : Schema} {info checked : ServletInstance}
    (h : checkAndGetForInstance s info = some checked) :
    checked.unnumbered = info.unnumbered := by
  unfold checkAndGetForInstance at h
  dsimp only at h
  split at h
  next => simp at h
  next =>
    split at h
    next => simp at h
    next =>
      split at h
      next => simp at h
      next =>
        cases Option.some.inj h
        rfl

theorem updatedInstance_unnumbered (request info : ServletInstance) :
    (updatedInstance request info).unnumbered = updatedInstance request info.unnumbered := rfl

variable (serialises) in
/-- The instances after a plan: as written where it succeeds, and as before elsewhere. -/
theorem run_life {p : Plan InstanceManager} {m m' : InstanceManager} {value : Option MetaValue}
    {batch : List BatchOp} {dbError : String} (plan : p = .write value batch dbError m m')
    (dbOk : Bool) (db : MetaDb) :
    ((p.run serialises dbOk db).2.errcode = .success ∧ (p.run serialises dbOk db).1.2 = m') ∨
      ((p.run serialises dbOk db).2.errcode ≠ .success ∧ (p.run serialises dbOk db).1.2 = m) := by
  have ends := p.run_ends serialises dbOk db
  generalize p.run serialises dbOk db = out at ends
  cases ends with
  | refused _ _ _ eq =>
    rw [plan] at eq
    cases eq
  | failed _ _ _ _ _ _ eq fails code =>
    rw [plan] at eq
    cases eq
    exact Or.inr ⟨code, rfl⟩
  | written _ _ _ _ _ eq =>
    rw [plan] at eq
    cases eq
    exact Or.inl ⟨rfl, rfl⟩

/-- Reading the records removes no instance. -/
theorem loadInstances_removed {db : MetaDb} {m : InstanceManager} (load : loadInstances db = some m)
    (address : Bytes) : m.removedInstance[address]? = none := by
  have folded : ∀ (es : List (Bytes × MetaValue)) (m₀ m' : InstanceManager),
      m₀.removedInstance = ∅ → es.foldlM loadInstanceSnapshot m₀ = some m' →
      m'.removedInstance = ∅ := by
    intro es
    induction es with
    | nil =>
      intro m₀ m' empty h
      cases Option.some.inj h
      exact empty
    | cons e es ih =>
      intro m₀ m' empty h
      rw [List.foldlM_cons] at h
      obtain ⟨m₁, here, h⟩ := Option.bind_eq_some_iff.mp h
      refine ih m₁ m' ?_ h
      unfold loadInstanceSnapshot at here
      split at here
      next info _ =>
        cases Option.some.inj here
        simp [InstanceManager.setInstanceInfo, empty]
      next => cases here
  rw [folded _ _ _ rfl load]
  simp

section Requests

variable {request : DiscoveryManagerRequest} {env : Env} {m : InstanceManager} {s : Schema}

theorem conclude_other {address : Bytes} {life : Life} {reply : Reply}
    (other : reply.errcode ≠ .success ∨ request.instanceInfo.address ≠ address) :
    conclude address life (.apply request env, .replied reply) = life := by
  have failed : ¬ (reply.errcode = .success ∧ request.instanceInfo.address = address) := by
    rintro ⟨success, same⟩
    rcases other with bad | ne
    · exact bad success
    · exact ne same
  simp only [conclude]
  rw [if_neg failed]

/-- A plan whose success turns the life of its own address into what the client expects. -/
theorem life_of_run {p : Plan InstanceManager} {m' : InstanceManager} {value : Option MetaValue}
    {batch : List BatchOp} {dbError : String} (plan : p = .write value batch dbError m m')
    (others : ∀ address, request.instanceInfo.address ≠ address → m'.life address = m.life address)
    (own : ∀ reply : Reply, reply.errcode = .success →
      (m'.life request.instanceInfo.address).unnumbered =
        conclude request.instanceInfo.address (m.life request.instanceInfo.address).unnumbered
          (.apply request env, .replied reply)) (db : MetaDb) (address : Bytes) :
    ((p.run serialises env.dbOk db).1.2.life address).unnumbered =
      conclude address (m.life address).unnumbered
        (.apply request env, .replied (p.run serialises env.dbOk db).2) := by
  rcases run_life serialises plan env.dbOk db with ⟨success, memory⟩ | ⟨bad, memory⟩
  · rw [memory]
    by_cases same : request.instanceInfo.address = address
    · subst same
      exact own _ success
    · rw [others address same, conclude_other (Or.inr same)]
  · rw [memory, conclude_other (Or.inl bad)]

theorem life_of_refuse {errmsg : String} (db : MetaDb) (address : Bytes) :
    (((Plan.refuse .inputParamError errmsg m).run serialises env.dbOk db).1.2.life
        address).unnumbered =
      conclude address (m.life address).unnumbered (.apply request env, .replied
        ((Plan.refuse .inputParamError errmsg m).run serialises env.dbOk db).2) :=
  (conclude_other (Or.inl (by simp [Plan.run]))).symm

theorem addInstance_life (op : request.opType = .opAddInstance) (db : MetaDb) (address : Bytes) :
    (((addInstance request env.now s m).run serialises env.dbOk db).1.2.life address).unnumbered =
      conclude address (m.life address).unnumbered (.apply request env,
        .replied ((addInstance request env.now s m).run serialises env.dbOk db).2) := by
  unfold addInstance
  dsimp only
  split
  next => exact life_of_refuse db address
  next checked ok =>
    split
    next => exact life_of_refuse db address
    next =>
      split
      next => exact life_of_refuse db address
      next =>
        have same : checked.address = request.instanceInfo.address :=
          (checkAndGetForInstance_samePlace ok).1
        have bare := checkAndGetForInstance_unnumbered ok
        refine life_of_run rfl ?_ ?_ db address
        · intro other ne
          exact life_set_ne _ _ (by simpa [same] using ne)
        · intro reply success
          have set := life_set_self m { checked with version := 1 }
          have own : reply.errcode = .success ∧ request.instanceInfo.address = checked.address :=
            ⟨success, same.symm⟩
          rw [← same, set]
          simp only [conclude]
          rw [if_pos own]
          simp only [op]
          rw [← bare]
          rfl

theorem dropInstance_life (op : request.opType = .opDropInstance) (db : MetaDb) (address : Bytes) :
    (((dropInstance request env.now m).run serialises env.dbOk db).1.2.life address).unnumbered =
      conclude address (m.life address).unnumbered (.apply request env,
        .replied ((dropInstance request env.now m).run serialises env.dbOk db).2) := by
  unfold dropInstance
  dsimp only
  split
  next => exact life_of_refuse db address
  next =>
    refine life_of_run rfl ?_ ?_ db address
    · exact fun other ne => life_remove_ne _ _ ne
    · intro reply success
      simp only [conclude, success, op, life_remove_self, and_self, if_true]
      rfl

theorem updateInstance_life (op : request.opType = .opUpdateInstance)
    (addressed : ∀ (a : Bytes) (info : ServletInstance), m.instanceInfo[a]? = some info →
      info.address = a) (db : MetaDb) (address : Bytes) :
    (((updateInstance request m).run serialises env.dbOk db).1.2.life address).unnumbered =
      conclude address (m.life address).unnumbered (.apply request env,
        .replied ((updateInstance request m).run serialises env.dbOk db).2) := by
  unfold updateInstance
  dsimp only
  split
  next => exact life_of_refuse db address
  next info found =>
    have same : (updatedInstance request.instanceInfo info).address =
        request.instanceInfo.address := addressed _ info found
    refine life_of_run rfl ?_ ?_ db address
    · intro other ne
      exact life_set_ne _ _ (by rw [same]; exact ne)
    · intro reply success
      have set := life_set_self m (updatedInstance request.instanceInfo info)
      rw [same] at set
      simp only [conclude, success, op, set, life_of_some found, Life.unnumbered,
        updatedInstance_unnumbered, and_self, if_true]

end Requests

/-- The effect of one event on every life is what a client concludes from its answer. -/
theorem answer_life (h : Reachable serialises (fun _ _ => True) r) (e : DiscoveryEvent)
    (address : Bytes) :
    ((r.answer serialises e).1.memory.instances.life address).unnumbered =
      conclude address (r.memory.instances.life address).unnumbered
        (e, (r.answer serialises e).2) := by
  have mirrored := (reachable_instancesSound h).mirrored
  have unmoved : ∀ {request : DiscoveryManagerRequest} {env : Env} {reply : Reply},
      instancesPlan request env.now r.memory.schema r.memory.instances = none →
      conclude address (r.memory.instances.life address).unnumbered
        (.apply request env, .replied reply) = (r.memory.instances.life address).unnumbered := by
    intro request env reply none
    unfold instancesPlan at none
    simp only [conclude]
    split
    next =>
      cases op : request.opType with
      | opAddInstance | opDropInstance | opUpdateInstance => simp [op] at none
      | _ => rfl
    next => rfl
  -- a load forgets the removals and keeps the registered instances
  have loaded : ∀ {m m' : Memory}, loadSnapshot r.db m = some m' →
      (m'.instances.life address).unnumbered =
        match (r.memory.instances.life address).unnumbered with
        | .cooling _ => .absent
        | life => life := by
    intro m m' load
    obtain ⟨m'', here, infos, _⟩ := loadInstances_eq mirrored
    have instances := (loadSnapshot_eq_some load).2.2.2
    rw [here] at instances
    cases Option.some.inj instances
    have removed := loadInstances_removed here
    cases found : r.memory.instances.instanceInfo[address]? with
    | some info =>
      rw [life_of_some found, life_of_some (by rw [infos]; exact found)]
      rfl
    | none =>
      rw [life_of_none found, life_of_none (by rw [infos]; exact found), removed]
      cases r.memory.instances.removedInstance[address]? <;> simp [Life.unnumbered]
  cases e with
  | apply request env =>
    simp only [Replica.answer]
    have applied := onApply_applied serialises request env r
    generalize onApply serialises request env r = out at applied
    cases applied with
    | schema p plan =>
      refine (unmoved ?_).symm
      cases op : request.opType <;> simp_all [schemaPlan, instancesPlan]
    | users p plan =>
      refine (unmoved ?_).symm
      cases op : request.opType <;> simp_all [usersPlan, instancesPlan]
    | configs p plan =>
      refine (unmoved ?_).symm
      cases op : request.opType <;> simp_all [configsPlan, instancesPlan]
    | unknown op => exact (unmoved (by simp [instancesPlan, op])).symm
    | instances p plan =>
      unfold instancesPlan at plan
      split at plan
      next op =>
        cases plan
        exact addInstance_life op r.db address
      next op =>
        cases plan
        exact dropInstance_life op r.db address
      next op =>
        cases plan
        exact updateInstance_life op mirrored.addressed r.db address
      next => cases plan
  | reload =>
    cases load : loadSnapshot r.db r.memory with
    | none =>
      simp only [Replica.answer, load]
      rfl
    | some m =>
      simp only [Replica.answer, load]
      exact loaded load
  | restart =>
    cases load : loadSnapshot r.db {} with
    | none =>
      simp only [Replica.answer, load]
      rfl
    | some m =>
      simp only [Replica.answer, load]
      exact loaded load

theorem reachable_answer (h : Reachable serialises (fun _ _ => True) r) (e : DiscoveryEvent) :
    Reachable serialises (fun _ _ => True) (r.answer serialises e).1 := by
  cases step : r.step serialises e with
  | some r' =>
    have same : (r.answer serialises e).1 = r' := by
      cases e with
      | apply request env => exact Option.some.inj step
      | reload | restart =>
        obtain ⟨m, load, rfl⟩ := Option.map_eq_some_iff.mp step
        simp only [Replica.answer, load]
    rw [same]
    exact h.next trivial step
  | none =>
    have same : (r.answer serialises e).1 = r := by
      cases e with
      | apply request env => cases step
      | reload | restart =>
        have load := Option.map_eq_none_iff.mp step
        simp only [Replica.answer, load]
    rwa [same]

theorem run_life_concluded (h : Reachable serialises (fun _ _ => True) r)
    (events : List DiscoveryEvent) :
    Reachable serialises (fun _ _ => True) (Run.all (Replica.answer serialises) r events).1 ∧
      ∀ address,
        ((Run.all (Replica.answer serialises) r events).1.memory.instances.life
            address).unnumbered =
          (events.zip (Run.all (Replica.answer serialises) r events).2).foldl (conclude address)
            (r.memory.instances.life address).unnumbered := by
  induction events generalizing r with
  | nil => exact ⟨h, fun _ => rfl⟩
  | cons e events ih =>
    obtain ⟨reach, lives⟩ := ih (reachable_answer h e)
    refine ⟨reach, fun address => ?_⟩
    have step := answer_life h e address
    rw [Run.all_cons, List.zip_cons_cons, List.foldl_cons, ← step]
    exact lives address

/-- An address may be registered: it is not, and was not removed within the hour. -/
def Life.Free (now : Int) : Life → Prop
  | absent => True
  | live _ => False
  | cooling since => 3600 ≤ InstanceManager.secondsSince since now

theorem life_free_iff {m : InstanceManager} {address : Bytes} {now : Int} :
    (m.life address).unnumbered.Free now ↔
      m.instanceInfo[address]? = none ∧ m.removedInOneHour now address = false := by
  cases found : m.instanceInfo[address]? with
  | some info =>
    rw [life_of_some found]
    simp [Life.unnumbered, Life.Free]
  | none =>
    rw [life_of_none found, InstanceManager.removedInOneHour]
    cases m.removedInstance[address]? with
    | none => simp [Life.unnumbered, Life.Free]
    | some since => simp [Life.unnumbered, Life.Free]

theorem addInstance_success {request : DiscoveryManagerRequest} {env : Env} {s : Schema}
    {m : InstanceManager} (db : MetaDb) :
    ((addInstance request env.now s m).run serialises env.dbOk db).2.errcode = .success ↔
      env.dbOk = true ∧ (m.life request.instanceInfo.address).unnumbered.Free env.now ∧
        ∃ checked, checkAndGetForInstance s request.instanceInfo = some checked ∧
          serialises (.instanceInfo { checked with version := 1 }) = true := by
  rw [life_free_iff]
  unfold addInstance
  dsimp only
  cases checkAndGetForInstance s request.instanceInfo with
  | none => simp [Plan.run]
  | some checked =>
    cases m.instanceInfo[request.instanceInfo.address]? with
    | some info => simp [Plan.run]
    | none =>
      cases m.removedInOneHour env.now request.instanceInfo.address with
      | true => simp [Plan.run]
      | false =>
        cases fits : serialises (.instanceInfo { checked with version := 1 }) <;>
          cases works : env.dbOk <;> simp [Plan.run, fits]

theorem life_live_iff {m : InstanceManager} {address : Bytes} :
    (∃ info, (m.life address).unnumbered = .live info) ↔
      (m.instanceInfo[address]?).isSome = true := by
  cases found : m.instanceInfo[address]? with
  | some info =>
    rw [life_of_some found]
    simp [Life.unnumbered]
  | none =>
    rw [life_of_none found]
    cases m.removedInstance[address]? <;> simp [Life.unnumbered]

theorem dropInstance_success {request : DiscoveryManagerRequest} {env : Env}
    {m : InstanceManager} (db : MetaDb) :
    ((dropInstance request env.now m).run serialises env.dbOk db).2.errcode = .success ↔
      env.dbOk = true ∧ ∃ info, (m.life request.instanceInfo.address).unnumbered = .live info := by
  rw [life_live_iff]
  unfold dropInstance
  dsimp only
  cases m.instanceInfo[request.instanceInfo.address]? with
  | none => simp [Plan.run]
  | some info => cases works : env.dbOk <;> simp [Plan.run]

/-- Over every run, whatever the database does and whenever it is loaded: what the answers
say of an address is what is registered under it, up to the numbers of its servlet, and
what a query for it returns. It is registered anew exactly if it is free, an hour after its
removal unless a load came between, and dropped exactly if it is registered. -/
theorem instance_lives (events : List DiscoveryEvent) :
    let out := Run.all (Replica.answer serialises) {} events
    let life := fun address => concluded address (events.zip out.2)
    (∀ address, (out.1.memory.instances.life address).unnumbered = life address) ∧
      (∀ (trim : Bytes → Bytes) (order : HashOrder) (q : DiscoveryQueryRequest) (address : Bytes),
        q.opType = .queryInstance → q.instanceAddress = some address →
        (discoveryQuery trim order q out.1.memory).instances.map ServletInstance.unnumbered =
          match life address with
          | .live info => [info]
          | _ => []) ∧
      ∀ (request : DiscoveryManagerRequest) (env : Env),
        (request.opType = .opAddInstance →
          ((onApply serialises request env out.1).2.errcode = .success ↔
            env.dbOk = true ∧ (life request.instanceInfo.address).Free env.now ∧
              ∃ checked, checkAndGetForInstance out.1.memory.schema request.instanceInfo =
                  some checked ∧
                serialises (.instanceInfo { checked with version := 1 }) = true)) ∧
        (request.opType = .opDropInstance →
          ((onApply serialises request env out.1).2.errcode = .success ↔
            env.dbOk = true ∧ ∃ info, life request.instanceInfo.address = .live info)) := by
  intro out life
  have lives : ∀ address, (out.1.memory.instances.life address).unnumbered = life address :=
    fun address => (run_life_concluded Reach.From.start events).2 address
  refine ⟨lives, ?_, ?_⟩
  · intro trim order q address op named
    rw [← lives]
    simp only [discoveryQuery, op, queryInstance, named]
    cases found : out.1.memory.instances.instanceInfo[address]? with
    | some info =>
      rw [life_of_some found]
      rfl
    | none =>
      rw [life_of_none found]
      cases out.1.memory.instances.removedInstance[address]? <;> rfl
  · intro request env
    rw [← lives]
    refine ⟨fun op => ?_, fun op => ?_⟩
    · have plan : instancesPlan request env.now out.1.memory.schema out.1.memory.instances =
          some (addInstance request env.now out.1.memory.schema out.1.memory.instances) := by
        simp only [instancesPlan, op]
      rw [onApply_of_handle (handle_of_instancesPlan plan)]
      exact addInstance_success _
    · have plan : instancesPlan request env.now out.1.memory.schema out.1.memory.instances =
          some (dropInstance request env.now out.1.memory.instances) := by
        simp only [instancesPlan, op]
      rw [onApply_of_handle (handle_of_instancesPlan plan)]
      exact dropInstance_success _

end EA
