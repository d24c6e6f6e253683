import EA.DiscoveryStateMachine
import EA.SchemaSteps

namespace EA

/-- Every entry is handled by one manager group, which owns its part of memory. -/
inductive Handled (request : DiscoveryManagerRequest) (now : Int) (m : Memory) :
    Plan Memory → Prop
  | schema (p : Plan Schema) (h : schemaPlan request m.schema = some p) :
      Handled request now m (p.map fun s => { m with schema := s })
  | users (p : Plan UserTable) (h : usersPlan request m.schema m.users = some p) :
      Handled request now m (p.map fun u => { m with users := u })
  | configs (p : Plan ConfigTable) (h : configsPlan request m.configs = some p) :
      Handled request now m (p.map fun c => { m with configs := c })
  | instances (p : Plan InstanceManager)
      (h : instancesPlan request now m.schema m.instances = some p) :
      Handled request now m (p.map fun i => { m with instances := i })
  | unknown (h : request.opType = .other) :
      Handled request now m (.refuse .unknownReqType "unknown request type" m)

theorem handle_handled (request : DiscoveryManagerRequest) (now : Int) (m : Memory) :
    Handled request now m (handle request now m) := by
  cases op : request.opType with
  | opCreateUser | opDropUser | opAddPrivilege | opDropPrivilege =>
    simp only [handle, op]
    exact .users _ (by simp only [usersPlan, op])
  | opCreateNamespace | opDropNamespace | opModifyNamespace | opCreateZone | opDropZone
  | opModifyZone | opCreateServlet | opDropServlet | opModifyServlet =>
    simp only [handle, op]
    exact .schema _ (by simp only [schemaPlan, op])
  | opCreateConfig | opRemoveConfig =>
    simp only [handle, op]
    exact .configs _ (by simp only [configsPlan, op])
  | opAddInstance | opDropInstance | opUpdateInstance =>
    simp only [handle, op]
    exact .instances _ (by simp only [instancesPlan, op])
  | other =>
    simp only [handle, op]
    exact .unknown op

theorem handle_of_schemaPlan {request : DiscoveryManagerRequest} {m : Memory} {p : Plan Schema}
    (h : schemaPlan request m.schema = some p) (now : Int) :
    handle request now m = p.map fun s => { m with schema := s } := by
  unfold schemaPlan at h
  split at h <;> cases h <;> simp only [handle, *]

theorem handle_of_usersPlan {request : DiscoveryManagerRequest} {m : Memory} {p : Plan UserTable}
    (h : usersPlan request m.schema m.users = some p) (now : Int) :
    handle request now m = p.map fun u => { m with users := u } := by
  unfold usersPlan at h
  split at h <;> cases h <;> simp only [handle, *]

theorem handle_of_configsPlan {request : DiscoveryManagerRequest} {m : Memory}
    {p : Plan ConfigTable} (h : configsPlan request m.configs = some p) (now : Int) :
    handle request now m = p.map fun c => { m with configs := c } := by
  unfold configsPlan at h
  split at h <;> cases h <;> simp only [handle, *]

theorem handle_of_instancesPlan {request : DiscoveryManagerRequest} {now : Int} {m : Memory}
    {p : Plan InstanceManager} (h : instancesPlan request now m.schema m.instances = some p) :
    handle request now m = p.map fun i => { m with instances := i } := by
  unfold instancesPlan at h
  split at h <;> cases h <;> simp only [handle, *]

/-- The names of an instance hold no separator. -/
def ServletInstance.Plain (info : ServletInstance) : Prop :=
  0x01 ∉ info.namespaceName ∧ 0x01 ∉ info.zoneName ∧ 0x01 ∉ info.servletName

instance (info : ServletInstance) : Decidable info.Plain := by
  unfold ServletInstance.Plain
  infer_instance

/-- The names of an entry hold no separator. -/
def DiscoveryManagerRequest.Plain (request : DiscoveryManagerRequest) : Prop :=
  0x01 ∉ request.namespaceInfo.namespaceName ∧
  (0x01 ∉ request.zoneInfo.namespaceName ∧ 0x01 ∉ request.zoneInfo.zone) ∧
  (0x01 ∉ request.servletInfo.namespaceName ∧ 0x01 ∉ request.servletInfo.zone ∧
    0x01 ∉ request.servletInfo.servletName) ∧
  request.instanceInfo.Plain

instance (request : DiscoveryManagerRequest) : Decidable request.Plain := by
  unfold DiscoveryManagerRequest.Plain
  infer_instance

/-- The names of an event hold no separator. -/
def PlainNames : DiscoveryEvent → Prop
  | .apply request _ => request.Plain
  | .reload => True
  | .restart => True

instance (e : DiscoveryEvent) : Decidable (PlainNames e) := by
  cases e <;> unfold PlainNames <;> infer_instance

/-- A part of the database that agrees on every key with the prefix. -/
def SameRecords (identify : Bytes) (db db' : MetaDb) : Prop :=
  ∀ key, identify.isPrefixOf key = true → db'[key]? = db[key]?

theorem lookup_batch {batch : List BatchOp} {key : Bytes} (absent : ∀ op ∈ batch, op.1 ≠ key)
    (db : MetaDb) : (batch.foldl BatchOp.apply db)[key]? = db[key]? := by
  induction batch generalizing db with
  | nil => rfl
  | cons op batch ih =>
    rw [List.foldl_cons, ih fun op' h => absent op' (List.mem_cons_of_mem _ h)]
    have ne := absent op (by simp)
    unfold BatchOp.apply
    split
    next => exact Table.lookup_insert_ne db _ ne
    next => exact Table.lookup_erase_ne db ne

theorem sameRecords_batch {batch : List BatchOp} {identify : Bytes}
    (elsewhere : ∀ op ∈ batch, identify.isPrefixOf op.1 = false) (db : MetaDb) :
    SameRecords identify db (batch.foldl BatchOp.apply db) := by
  intro key here
  refine lookup_batch ?_ db
  rintro op hop rfl
  rw [elsewhere op hop] at here
  exact absurd here (by decide)

namespace Plan

variable {σ : Type} {serialises : MetaValue → Bool} {dbOk : Bool} {db : MetaDb} {p : Plan σ}

/-- Whatever becomes of the plan, `I` holds afterwards. -/
def Preserves (I : MetaDb → σ → Prop) (db : MetaDb) : Plan σ → Prop
  | .refuse _ _ memory => I db memory
  | .write _ batch _ touched memory => I db touched ∧ I (batch.foldl BatchOp.apply db) memory

theorem run_preserves {I : MetaDb → σ → Prop} (h : p.Preserves I db) :
    I (p.run serialises dbOk db).1.1 (p.run serialises dbOk db).1.2 := by
  have ends := p.run_ends serialises dbOk db
  generalize p.run serialises dbOk db = out at ends
  cases ends with
  | refused _ _ _ eq =>
    subst eq
    exact h
  | failed _ _ _ _ _ _ eq =>
    subst eq
    exact h.1
  | written _ _ _ _ _ eq =>
    subst eq
    exact h.2

/-- As `run_preserves`, where the new memory matters only if the write goes through. -/
theorem run_write_preserves {I : MetaDb → σ → Prop} {value : Option MetaValue}
    {batch : List BatchOp} {dbError : String} {touched memory : σ} (fails : I db touched)
    (goes : value.any (fun v => !serialises v) = false → dbOk = true →
      I (batch.foldl BatchOp.apply db) memory) :
    I ((Plan.write value batch dbError touched memory).run serialises dbOk db).1.1
      ((Plan.write value batch dbError touched memory).run serialises dbOk db).1.2 := by
  have ends := (Plan.write value batch dbError touched memory).run_ends serialises dbOk db
  generalize (Plan.write value batch dbError touched memory).run serialises dbOk db = out at ends
  cases ends with
  | refused _ _ _ eq => simp at eq
  | failed _ _ _ _ _ _ eq =>
    cases eq
    exact fails
  | written _ _ _ _ _ eq fits works =>
    cases eq
    exact goes fits works

theorem run_sameRecords {identify : Bytes}
    (elsewhere : ∀ op ∈ p.batch, identify.isPrefixOf op.1 = false) :
    SameRecords identify db (p.run serialises dbOk db).1.1 := by
  refine run_preserves (I := fun db' _ => SameRecords identify db db') ?_
  cases p with
  | refuse => exact fun _ _ => rfl
  | write _ batch => exact ⟨fun _ _ => rfl, sameRecords_batch elsewhere db⟩

/-- A plan that writes under one tag leaves the records of another. -/
theorem run_otherTag {a b : UInt8} (writes : ∀ op ∈ p.batch, [a].isPrefixOf op.1 = true)
    (ne : a ≠ b) : SameRecords [b] db (p.run serialises dbOk db).1.1 := by
  refine run_sameRecords fun op hop => ?_
  have tagged := writes op hop
  cases hkey : op.1 with
  | nil => rfl
  | cons x rest =>
    rw [hkey] at tagged
    have first : a = x := by simpa using tagged
    have other : ¬ b = x := fun eq => ne (first.trans eq.symm)
    simp [List.isPrefixOf, other]

end Plan

theorem SchemaStep.tagged {request : DiscoveryManagerRequest} {s : Schema} {p : Plan Schema}
    (h : SchemaStep request s p) : ∀ op ∈ p.batch, [0x01].isPrefixOf op.1 = true := by
  intro op hop
  obtain ⟨r, rfl | rfl⟩ := h.writes op hop
  · exact r.schemaIdentify_isPrefixOf
  · exact r.schemaIdentify_isPrefixOf

theorem UserStep.tagged {request : DiscoveryManagerRequest} {users : UserTable}
    {p : Plan UserTable} (h : UserStep request users p) :
    ∀ op ∈ p.batch, [0x02].isPrefixOf op.1 = true := by
  cases h with
  | refused => simp [Plan.batch]
  | put | delete =>
    simp only [Plan.batch, List.forall_mem_singleton]
    rfl

theorem ConfigStep.tagged {request : DiscoveryManagerRequest} {configs : ConfigTable}
    {p : Plan ConfigTable} (h : ConfigStep request configs p) :
    ∀ op ∈ p.batch, [0x04].isPrefixOf op.1 = true := by
  cases h with
  | refused => simp [Plan.batch]
  | created | removed =>
    simp only [Plan.batch, List.forall_mem_singleton]
    rfl
  | removedAll =>
    simp only [Plan.batch, List.forall_mem_map]
    exact fun _ _ => rfl

theorem InstanceStep.tagged {request : DiscoveryManagerRequest} {now : Int} {m : InstanceManager}
    {p : Plan InstanceManager} (h : InstanceStep request now m p) :
    ∀ op ∈ p.batch, [0x03].isPrefixOf op.1 = true := by
  cases h with
  | refused => simp [Plan.batch]
  | added | dropped | updated =>
    simp only [Plan.batch, List.forall_mem_singleton]
    rfl

/-- An entry's effect: one group's plan is run, the other groups and their
records stay. -/
inductive Applied (serialises : MetaValue → Bool) (request : DiscoveryManagerRequest) (env : Env)
    (r : Replica) : Replica × Reply → Prop
  | schema (p : Plan Schema) (h : schemaPlan request r.memory.schema = some p) :
      Applied serialises request env r
        (⟨(p.run serialises env.dbOk r.db).1.1,
          { r.memory with schema := (p.run serialises env.dbOk r.db).1.2 }⟩,
          (p.run serialises env.dbOk r.db).2)
  | users (p : Plan UserTable) (h : usersPlan request r.memory.schema r.memory.users = some p) :
      Applied serialises request env r
        (⟨(p.run serialises env.dbOk r.db).1.1,
          { r.memory with users := (p.run serialises env.dbOk r.db).1.2 }⟩,
          (p.run serialises env.dbOk r.db).2)
  | configs (p : Plan ConfigTable) (h : configsPlan request r.memory.configs = some p) :
      Applied serialises request env r
        (⟨(p.run serialises env.dbOk r.db).1.1,
          { r.memory with configs := (p.run serialises env.dbOk r.db).1.2 }⟩,
          (p.run serialises env.dbOk r.db).2)
  | instances (p : Plan InstanceManager)
      (h : instancesPlan request env.now r.memory.schema r.memory.instances = some p) :
      Applied serialises request env r
        (⟨(p.run serialises env.dbOk r.db).1.1,
          { r.memory with instances := (p.run serialises env.dbOk r.db).1.2 }⟩,
          (p.run serialises env.dbOk r.db).2)
  | unknown (h : request.opType = .other) :
      Applied serialises request env r (r, ⟨.unknownReqType, "unknown request type"⟩)

theorem onApply_applied (serialises : MetaValue → Bool) (request : DiscoveryManagerRequest)
    (env : Env) (r : Replica) :
    Applied serialises request env r (onApply serialises request env r) := by
  have handled := handle_handled request env.now r.memory
  unfold onApply
  dsimp only
  generalize handle request env.now r.memory = plan at handled
  cases handled with
  | schema p h =>
    rw [Plan.run_map]
    exact .schema p h
  | users p h =>
    rw [Plan.run_map]
    exact .users p h
  | configs p h =>
    rw [Plan.run_map]
    exact .configs p h
  | instances p h =>
    rw [Plan.run_map]
    exact .instances p h
  | unknown h => exact .unknown h

theorem onApply_of_handle {σ : Type} {serialises : MetaValue → Bool}
    {request : DiscoveryManagerRequest} {env : Env} {r : Replica} {q : Plan σ} {f : σ → Memory}
    (h : handle request env.now r.memory = q.map f) :
    onApply serialises request env r =
      (⟨(q.run serialises env.dbOk r.db).1.1, f (q.run serialises env.dbOk r.db).1.2⟩,
        (q.run serialises env.dbOk r.db).2) := by
  unfold onApply
  rw [h, Plan.run_map]

theorem onApply_configs {serialises : MetaValue → Bool} {request : DiscoveryManagerRequest}
    {r : Replica} {p : Plan ConfigTable} (h : configsPlan request r.memory.configs = some p)
    (env : Env) :
    onApply serialises request env r =
      (⟨(p.run serialises env.dbOk r.db).1.1,
        { r.memory with configs := (p.run serialises env.dbOk r.db).1.2 }⟩,
        (p.run serialises env.dbOk r.db).2) :=
  onApply_of_handle (handle_of_configsPlan h env.now)

theorem loadSnapshot_eq_some {db : MetaDb} {m m' : Memory} (h : loadSnapshot db m = some m') :
    loadUsers db = some m'.users ∧ loadSchema db m.schema = some m'.schema ∧
      loadConfigs db = some m'.configs ∧ loadInstances db = some m'.instances := by
  obtain ⟨users, hu, h⟩ := Option.bind_eq_some_iff.mp h
  obtain ⟨schema, hs, h⟩ := Option.bind_eq_some_iff.mp h
  obtain ⟨configs, hc, h⟩ := Option.bind_eq_some_iff.mp h
  obtain ⟨instances, hi, h⟩ := Option.bind_eq_some_iff.mp h
  cases Option.some.inj h
  exact ⟨hu, hs, hc, hi⟩

section Rules

variable {serialises : MetaValue → Bool} {ok : Replica → DiscoveryEvent → Prop}

/-- To keep an invariant of database and memory, it is enough that the entries and
the two kinds of reload keep it. -/
theorem memory_invariant {I : MetaDb → Memory → Prop} (init : I ∅ {})
    (applied : ∀ r request env out, I r.db r.memory → ok r (.apply request env) →
      Applied serialises request env r out → I out.1.db out.1.memory)
    (reload : ∀ db m m₀ m', I db m → m₀ = m ∨ m₀ = {} → loadSnapshot db m₀ = some m' → I db m')
    {r : Replica} (h : Reachable serialises ok r) : I r.db r.memory := by
  refine Reach.From.invariant (I := fun r => I r.db r.memory) init ?_ h
  intro r e r' _ inv allowed hs
  cases e with
  | apply request env =>
    cases Option.some.inj hs
    exact applied r request env _ inv allowed (onApply_applied serialises request env r)
  | reload =>
    obtain ⟨m, hm, rfl⟩ := Option.map_eq_some_iff.mp hs
    exact reload _ _ _ _ inv (Or.inl rfl) hm
  | restart =>
    obtain ⟨m, hm, rfl⟩ := Option.map_eq_some_iff.mp hs
    exact reload _ _ _ _ inv (Or.inr rfl) hm

/-- To keep an invariant of the schema managers and their records, it is enough
that their own requests and the two kinds of reload keep it. -/
theorem schema_invariant {I : MetaDb → Schema → Prop} (init : I ∅ {})
    (frame : ∀ {db db' s}, SameRecords schemaIdentify db db' → I db s → I db' s)
    (own : ∀ r request env p, I r.db r.memory.schema → ok r (.apply request env) →
      schemaPlan request r.memory.schema = some p →
      I (p.run serialises env.dbOk r.db).1.1 (p.run serialises env.dbOk r.db).1.2)
    (reload : ∀ db s s₀ s', I db s → s₀ = s ∨ s₀ = {} → loadSchema db s₀ = some s' → I db s')
    {r : Replica} (h : Reachable serialises ok r) : I r.db r.memory.schema := by
  refine memory_invariant (I := fun db m => I db m.schema) init ?_ ?_ h
  · intro r request env out inv allowed applied
    cases applied with
    | schema p h => exact own r request env p inv allowed h
    | users p h => exact frame (Plan.run_otherTag (usersPlan_step h).tagged (by decide)) inv
    | configs p h => exact frame (Plan.run_otherTag (configsPlan_step h).tagged (by decide)) inv
    | instances p h => exact frame (Plan.run_otherTag (instancesPlan_step h).tagged (by decide)) inv
    | unknown => exact inv
  · intro db m m₀ m' inv start load
    have part : m₀.schema = m.schema ∨ m₀.schema = {} := by
      rcases start with rfl | rfl
      · exact Or.inl rfl
      · exact Or.inr rfl
    exact reload _ _ _ _ inv part (loadSnapshot_eq_some load).2.1

theorem users_invariant {I : MetaDb → UserTable → Prop} (init : I ∅ ∅)
    (frame : ∀ {db db' users}, SameRecords privilegeIdentify db db' → I db users → I db' users)
    (own : ∀ r request env p, I r.db r.memory.users → ok r (.apply request env) →
      usersPlan request r.memory.schema r.memory.users = some p →
      I (p.run serialises env.dbOk r.db).1.1 (p.run serialises env.dbOk r.db).1.2)
    (reload : ∀ db users users', I db users → loadUsers db = some users' → I db users')
    {r : Replica} (h : Reachable serialises ok r) : I r.db r.memory.users := by
  refine memory_invariant (I := fun db m => I db m.users) init ?_ ?_ h
  · intro r request env out inv allowed applied
    cases applied with
    | schema p h => exact frame (Plan.run_otherTag (schemaPlan_step h).tagged (by decide)) inv
    | users p h => exact own r request env p inv allowed h
    | configs p h => exact frame (Plan.run_otherTag (configsPlan_step h).tagged (by decide)) inv
    | instances p h => exact frame (Plan.run_otherTag (instancesPlan_step h).tagged (by decide)) inv
    | unknown => exact inv
  · intro db m m₀ m' inv _ load
    exact reload _ _ _ inv (loadSnapshot_eq_some load).1

theorem configs_invariant {I : MetaDb → ConfigTable → Prop} (init : I ∅ ∅)
    (frame : ∀ {db db' configs}, SameRecords configIdentify db db' → I db configs → I db' configs)
    (own : ∀ r request env p, I r.db r.memory.configs → ok r (.apply request env) →
      configsPlan request r.memory.configs = some p →
      I (p.run serialises env.dbOk r.db).1.1 (p.run serialises env.dbOk r.db).1.2)
    (reload : ∀ db configs configs', I db configs → loadConfigs db = some configs' →
      I db configs')
    {r : Replica} (h : Reachable serialises ok r) : I r.db r.memory.configs := by
  refine memory_invariant (I := fun db m => I db m.configs) init ?_ ?_ h
  · intro r request env out inv allowed applied
    cases applied with
    | schema p h => exact frame (Plan.run_otherTag (schemaPlan_step h).tagged (by decide)) inv
    | users p h => exact frame (Plan.run_otherTag (usersPlan_step h).tagged (by decide)) inv
    | configs p h => exact own r request env p inv allowed h
    | instances p h => exact frame (Plan.run_otherTag (instancesPlan_step h).tagged (by decide)) inv
    | unknown => exact inv
  · intro db m m₀ m' inv _ load
    exact reload _ _ _ inv (loadSnapshot_eq_some load).2.2.1

theorem instances_invariant {I : MetaDb → InstanceManager → Prop} (init : I ∅ {})
    (frame : ∀ {db db' m}, SameRecords discoveryIdentify db db' → I db m → I db' m)
    (own : ∀ r request env p, I r.db r.memory.instances → ok r (.apply request env) →
      instancesPlan request env.now r.memory.schema r.memory.instances = some p →
      I (p.run serialises env.dbOk r.db).1.1 (p.run serialises env.dbOk r.db).1.2)
    (reload : ∀ db m m', I db m → loadInstances db = some m' → I db m')
    {r : Replica} (h : Reachable serialises ok r) : I r.db r.memory.instances := by
  refine memory_invariant (I := fun db m => I db m.instances) init ?_ ?_ h
  · intro r request env out inv allowed applied
    cases applied with
    | schema p h => exact frame (Plan.run_otherTag (schemaPlan_step h).tagged (by decide)) inv
    | users p h => exact frame (Plan.run_otherTag (usersPlan_step h).tagged (by decide)) inv
    | configs p h => exact frame (Plan.run_otherTag (configsPlan_step h).tagged (by decide)) inv
    | instances p h => exact own r request env p inv allowed h
    | unknown => exact inv
  · intro db m m₀ m' inv _ load
    exact reload _ _ _ inv (loadSnapshot_eq_some load).2.2.2

end Rules

end EA
