import EA.ClientUtility
import EA.ServletIndex

namespace EA

open ByteString

/-- The `ServletInstance` message with what its sender has set in it. -/
structure InstanceMessage where
  address : Option Bytes := none
  namespaceName : Option Bytes := none
  zoneName : Option Bytes := none
  servletName : Option Bytes := none
  env : Option Bytes := none
  color : Option Bytes := none
  status : Option Int := none
  weight : Option Int := none
  timestamp : Option Int := none
deriving DecidableEq

/-- A manager request about an instance. -/
structure InstanceRequest where
  opType : OpType
  instanceInfo : Option InstanceMessage := none
deriving DecidableEq

/-- What the handlers read in the message. -/
def InstanceMessage.received (info : InstanceMessage) : ServletInstance where
  address := info.address.getD []
  namespaceName := info.namespaceName.getD []
  zoneName := info.zoneName.getD []
  servletName := info.servletName.getD []
  env := info.env
  color := info.color
  status := info.status
  weight := info.weight

def InstanceRequest.received (request : InstanceRequest) : DiscoveryManagerRequest where
  opType := request.opType
  instanceInfo := (request.instanceInfo.getD {}).received

/-- The instance part of `SchemaManager::process_schema_info` on the leader, which
refuses a request or hands it to the state machine. -/
def processInstanceInfo (request : InstanceRequest) : Except Reply DiscoveryManagerRequest :=
  match request.instanceInfo with
  | none => .error ⟨.inputParamError, "no instance info"⟩
  | some info =>
    if info.namespaceName.isNone || info.zoneName.isNone || info.servletName.isNone ||
        info.address.isNone || info.env.isNone then
      .error ⟨.inputParamError, "no required namespace zone or servlet info"⟩
    else .ok request.received

/-- The leader's answer to a request whose log entry it applies in `env`. -/
def serveInstance (serialises : MetaValue → Bool) (request : InstanceRequest) (env : Env)
    (r : Replica) : Replica × Reply :=
  match processInstanceInfo request with
  | .error reply => (r, reply)
  | .ok request => onApply serialises request env r

structure DiscoveryOptionContext where
  namespaceName : Bytes := []
  servletName : Bytes := []
  zoneName : Bytes := []
  env : Bytes := []
  color : Bytes := []
  status : Bytes := []
  address : Bytes := []
  jsonFile : Bytes := []
  weight : Int := -1

/-- What the commands use besides their options: the parser of the `Status` enumerators,
the loader of json files, and the clock. -/
structure CommandLib where
  statusParse : Bytes → Option Int
  loadProtoFromFile : Bytes → Except Status InstanceMessage
  time : Int

def stringToStatus (lib : CommandLib) (status : Bytes) : Except Status Int :=
  match lib.statusParse status with
  | some value => .ok value
  | none => .error ⟨.invalidArgument, ascii "unknown status"⟩

/-- The three checks that every command makes first. -/
def checkNames (opt : DiscoveryOptionContext) : Except Status Unit := do
  checkValidNameType opt.namespaceName
  checkValidNameType opt.zoneName
  checkValidNameType opt.servletName

/-- What `add_instance` and `update_instance` build from their parameters. -/
def filledInstance (lib : CommandLib) (opt : DiscoveryOptionContext) :
    Except Status InstanceMessage := do
  checkNames opt
  let status ← stringToStatus lib opt.status
  return {
    namespaceName := some opt.namespaceName
    zoneName := some opt.zoneName
    servletName := some opt.servletName
    color := some opt.color
    env := some opt.env
    status := some status
    address := some opt.address
    weight := if opt.weight ≠ -1 then some opt.weight else none
    timestamp := some (lib.time.bmod (2 ^ 32)) }

def makeDiscoveryAddInstance (lib : CommandLib) (opt : DiscoveryOptionContext) :
    Except Status InstanceRequest := do
  if opt.jsonFile ≠ [] then
    return ⟨.opAddInstance, some (← lib.loadProtoFromFile opt.jsonFile)⟩
  return ⟨.opAddInstance, some (← filledInstance lib opt)⟩

/-- The request to remove an instance has no `env`, given or not. -/
def makeDiscoveryRemoveInstance (lib : CommandLib) (opt : DiscoveryOptionContext) :
    Except Status InstanceRequest := do
  if opt.jsonFile ≠ [] then
    return ⟨.opDropInstance, some (← lib.loadProtoFromFile opt.jsonFile)⟩
  checkNames opt
  return ⟨.opDropInstance, some {
    namespaceName := some opt.namespaceName
    zoneName := some opt.zoneName
    servletName := some opt.servletName
    address := some opt.address }⟩

def makeDiscoveryUpdateInstance (lib : CommandLib) (opt : DiscoveryOptionContext) :
    Except Status InstanceRequest := do
  if opt.jsonFile ≠ [] then
    return ⟨.opUpdateInstance, some (← lib.loadProtoFromFile opt.jsonFile)⟩
  return ⟨.opUpdateInstance, some (← filledInstance lib opt)⟩

inductive InstanceCommand where
  | addInstance | removeInstance | updateInstance
deriving DecidableEq

def InstanceCommand.make (lib : CommandLib) (opt : DiscoveryOptionContext) :
    InstanceCommand → Except Status InstanceRequest
  | .addInstance => makeDiscoveryAddInstance lib opt
  | .removeInstance => makeDiscoveryRemoveInstance lib opt
  | .updateInstance => makeDiscoveryUpdateInstance lib opt

variable {lib : CommandLib} {opt : DiscoveryOptionContext} {request : InstanceRequest}
  {serialises : MetaValue → Bool} {env : Env} {r : Replica}

theorem filledInstance_eq_ok {info : InstanceMessage} (h : filledInstance lib opt = .ok info) :
    info.address = some opt.address ∧ info.namespaceName = some opt.namespaceName ∧
      info.zoneName = some opt.zoneName ∧ info.servletName = some opt.servletName ∧
      info.env = some opt.env := by
  unfold filledInstance at h
  cases names : checkNames opt with
  | error err => simp [names, bind, Except.bind] at h
  | ok _ =>
    cases status : stringToStatus lib opt.status with
    | error err => simp [names, status, bind, Except.bind] at h
    | ok value =>
      simp only [names, status, bind, Except.bind, pure, Except.pure, Except.ok.injEq] at h
      subst info
      exact ⟨rfl, rfl, rfl, rfl, rfl⟩

def InstanceCommand.opType : InstanceCommand → OpType
  | .addInstance => .opAddInstance
  | .removeInstance => .opDropInstance
  | .updateInstance => .opUpdateInstance

/-- What a command builds from its parameters. -/
structure BuiltFrom (cmd : InstanceCommand) (opt : DiscoveryOptionContext)
    (request : InstanceRequest) (info : InstanceMessage) : Prop where
  op : request.opType = cmd.opType
  message : request.instanceInfo = some info
  address : info.address = some opt.address
  namespaceName : info.namespaceName = some opt.namespaceName
  zoneName : info.zoneName = some opt.zoneName
  servletName : info.servletName = some opt.servletName
  env : info.env = if cmd = .removeInstance then none else some opt.env

theorem make_built {cmd : InstanceCommand} (parameters : opt.jsonFile = [])
    (h : cmd.make lib opt = .ok request) : ∃ info, BuiltFrom cmd opt request info := by
  have filled : ∀ op : OpType, (do return ⟨op, some (← filledInstance lib opt)⟩ :
      Except Status InstanceRequest) = .ok request →
      ∃ info, filledInstance lib opt = .ok info ∧ request = ⟨op, some info⟩ := by
    intro op h
    cases fill : filledInstance lib opt with
    | error err => simp [fill, bind, Except.bind] at h
    | ok info =>
      simp only [fill, bind, Except.bind, pure, Except.pure, Except.ok.injEq] at h
      exact ⟨info, rfl, h.symm⟩
  cases cmd with
  | addInstance =>
    simp only [InstanceCommand.make, makeDiscoveryAddInstance, parameters] at h
    obtain ⟨info, fill, rfl⟩ := filled _ h
    obtain ⟨address, namespaceName, zoneName, servletName, env⟩ := filledInstance_eq_ok fill
    exact ⟨info, rfl, rfl, address, namespaceName, zoneName, servletName, env⟩
  | updateInstance =>
    simp only [InstanceCommand.make, makeDiscoveryUpdateInstance, parameters] at h
    obtain ⟨info, fill, rfl⟩ := filled _ h
    obtain ⟨address, namespaceName, zoneName, servletName, env⟩ := filledInstance_eq_ok fill
    exact ⟨info, rfl, rfl, address, namespaceName, zoneName, servletName, env⟩
  | removeInstance =>
    simp only [InstanceCommand.make, makeDiscoveryRemoveInstance, parameters] at h
    cases names : checkNames opt with
    | error err => simp [names, bind, Except.bind] at h
    | ok _ =>
      simp [names, bind, Except.bind, pure, Except.pure] at h
      subst request
      exact ⟨_, rfl, rfl, rfl, rfl, rfl, rfl, rfl⟩

/-- The field checks stop exactly the requests to remove an instance. -/
theorem processInstanceInfo_built {cmd : InstanceCommand} {info : InstanceMessage}
    (h : BuiltFrom cmd opt request info) : processInstanceInfo request =
      if cmd = .removeInstance then
        .error ⟨.inputParamError, "no required namespace zone or servlet info"⟩
      else .ok request.received := by
  unfold processInstanceInfo
  rw [h.message]
  dsimp only
  rw [h.namespaceName, h.zoneName, h.servletName, h.address, h.env]
  by_cases remove : cmd = .removeInstance <;> simp [remove]

/-- A handler that gets as far as its write answers SUCCESS if the write works. -/
theorem write_success {σ : Type} {info : ServletInstance} {batch : List BatchOp}
    {dbError : String} {touched memory : σ} {db : MetaDb}
    (fits : ∀ info, serialises (.instanceInfo info) = true) :
    ((Plan.write (some (.instanceInfo info)) batch dbError touched memory).run serialises true
      db).2.errcode = .success := by
  simp [Plan.run, fits]

theorem onApply_reply {request : DiscoveryManagerRequest} {p : Plan InstanceManager}
    (h : instancesPlan request env.now r.memory.schema r.memory.instances = some p) :
    (onApply serialises request env r).2 = (p.run serialises env.dbOk r.db).2 := by
  rw [onApply_of_handle (handle_of_instancesPlan h)]

/-- The instance's namespace and zone are there. -/
def ParentsKnown (s : Schema) (info : ServletInstance) : Prop :=
  s.namespaces.getNamespaceId info.namespaceName ≠ 0 ∧ s.zones.getZoneId info.zoneKey ≠ 0

/-- The instance's servlet is there. -/
def ServletKnown (s : Schema) (info : ServletInstance) : Prop :=
  s.servlets.getServletId info.servletKey ≠ 0

theorem checkAndGetForInstance_isSome (s : Schema) (info : ServletInstance) :
    (checkAndGetForInstance s info).isSome = true ↔ ParentsKnown s info ∧ ServletKnown s info := by
  unfold checkAndGetForInstance ParentsKnown ServletKnown
  dsimp only
  split
  next noNamespace => simp [noNamespace]
  next =>
    split
    next noZone => simp [noZone]
    next =>
      split
      next noServlet => simp [noServlet]
      next => simp [*]

theorem add_success_iff {request : DiscoveryManagerRequest} (op : request.opType = .opAddInstance)
    (works : env.dbOk = true) (fits : ∀ info, serialises (.instanceInfo info) = true)
    (servlet : ServletKnown r.memory.schema request.instanceInfo)
    (absent : request.instanceInfo.address ∉ r.memory.instances.instanceInfo)
    (kept : r.memory.instances.removedInOneHour env.now request.instanceInfo.address = false) :
    (onApply serialises request env r).2.errcode = .success ↔
      ParentsKnown r.memory.schema request.instanceInfo := by
  have plan : instancesPlan request env.now r.memory.schema r.memory.instances =
      some (addInstance request env.now r.memory.schema r.memory.instances) := by
    simp only [instancesPlan, op]
  have checks := checkAndGetForInstance_isSome r.memory.schema request.instanceInfo
  rw [and_iff_left servlet] at checks
  rw [onApply_reply plan, works, ← checks]
  unfold addInstance
  dsimp only
  cases checked : checkAndGetForInstance r.memory.schema request.instanceInfo with
  | none => simp [Plan.run]
  | some info =>
    have free : r.memory.instances.instanceInfo[request.instanceInfo.address]? = none := by
      simpa using absent
    simp only [free, kept]
    exact iff_of_true (write_success fits) rfl

theorem update_success {request : DiscoveryManagerRequest}
    (op : request.opType = .opUpdateInstance) (works : env.dbOk = true)
    (fits : ∀ info, serialises (.instanceInfo info) = true)
    (present : request.instanceInfo.address ∈ r.memory.instances.instanceInfo) :
    (onApply serialises request env r).2.errcode = .success := by
  have plan : instancesPlan request env.now r.memory.schema r.memory.instances =
      some (updateInstance request r.memory.instances) := by
    simp only [instancesPlan, op]
  obtain ⟨info, found⟩ := Table.mem_iff_lookup.mp present
  rw [onApply_reply plan, works]
  unfold updateInstance
  simp only [found]
  exact write_success fits

/-- A command's request passes the field checks, and then does what the command is for. -/
structure PassesChecks (serialises : MetaValue → Bool) (cmd : InstanceCommand)
    (request : InstanceRequest) (env : Env) (r : Replica) : Prop where
  passes : processInstanceInfo request = .ok request.received
  changes : cmd ≠ .addInstance →
    request.received.instanceInfo.address ∈ r.memory.instances.instanceInfo →
    (serveInstance serialises request env r).2.errcode = .success
  adds : cmd = .addInstance → ServletKnown r.memory.schema request.received.instanceInfo →
    request.received.instanceInfo.address ∉ r.memory.instances.instanceInfo →
    r.memory.instances.removedInOneHour env.now request.received.instanceInfo.address = false →
    (serveInstance serialises request env r).2.errcode = .success

/-- The command adds or updates, and one that could add an instance to a servlet
finds the servlet's namespace and zone too. -/
structure CanFit (cmd : InstanceCommand) (request : InstanceRequest) (env : Env) (r : Replica) :
    Prop where
  sends : cmd ≠ .removeInstance
  parents : cmd = .addInstance → ServletKnown r.memory.schema request.received.instanceInfo →
    request.received.instanceInfo.address ∉ r.memory.instances.instanceInfo →
    r.memory.instances.removedInOneHour env.now request.received.instanceInfo.address = false →
    ParentsKnown r.memory.schema request.received.instanceInfo

theorem instance_command_fits_iff (lib : CommandLib) (opt : DiscoveryOptionContext)
    (serialises : MetaValue → Bool) (cmd : InstanceCommand) (request : InstanceRequest)
    (env : Env) (r : Replica) (parameters : opt.jsonFile = [])
    (built : cmd.make lib opt = .ok request) (works : env.dbOk = true)
    (fits : ∀ info, serialises (.instanceInfo info) = true) :
    PassesChecks serialises cmd request env r ↔ CanFit cmd request env r := by
  obtain ⟨info, from_⟩ := make_built parameters built
  have checks := processInstanceInfo_built from_
  by_cases remove : cmd = .removeInstance
  · refine iff_of_false (fun h => ?_) fun h => h.sends remove
    have passes := h.passes
    rw [checks, if_pos remove] at passes
    simp at passes
  · rw [if_neg remove] at checks
    have served : serveInstance serialises request env r =
        onApply serialises request.received env r := by
      rw [serveInstance, checks]
    have op : request.received.opType = cmd.opType := from_.op
    constructor
    · intro h
      refine ⟨remove, fun add servlet absent kept => ?_⟩
      have success := h.adds add servlet absent kept
      rw [served] at success
      rw [add] at op
      exact (add_success_iff op works fits servlet absent kept).mp success
    · intro h
      refine ⟨checks, fun notAdd present => ?_, fun add servlet absent kept => ?_⟩
      · rw [served]
        cases cmd with
        | addInstance => exact absurd rfl notAdd
        | removeInstance => exact absurd rfl remove
        | updateInstance => exact update_success op works fits present
      · rw [served]
        rw [add] at op
        exact (add_success_iff op works fits servlet absent kept).mpr
          (h.parents add servlet absent kept)

/-! One instance and the commands about it. -/

def normalOnly : CommandLib where
  statusParse status := if status = ascii "NORMAL" then some 1 else none
  loadProtoFromFile _ := .ok {}
  time := 1700000000

def tillOptions : DiscoveryOptionContext where
  namespaceName := ascii "shop"
  servletName := ascii "till"
  zoneName := ascii "east"
  env := ascii "prod"
  color := ascii "default"
  status := ascii "NORMAL"
  address := ascii "10.0.0.1:9000"

def tillMessage : InstanceMessage where
  address := some (ascii "10.0.0.1:9000")
  namespaceName := some (ascii "shop")
  zoneName := some (ascii "east")
  servletName := some (ascii "till")
  env := some (ascii "prod")
  color := some (ascii "default")
  status := some 1
  timestamp := some 1700000000

/-- The till of zone east is registered. -/
def tillEvents : List DiscoveryEvent :=
  [namespaceEvent "shop", zoneEvent .opCreateZone "shop" "east",
    servletEvent .opCreateServlet "shop" "east" "till",
    .apply (InstanceRequest.received ⟨.opAddInstance, some tillMessage⟩) ⟨0, true⟩]

/-- The registered till is updated. -/
theorem till_update_fits : ∃ r, tillEvents.foldlM (Replica.step fun _ => true) {} = some r ∧
    ascii "10.0.0.1:9000" ∈ r.memory.instances.instanceInfo ∧
    PassesChecks (fun _ => true) .updateInstance ⟨.opUpdateInstance, some tillMessage⟩ ⟨0, true⟩ r ∧
    (serveInstance (fun _ => true) ⟨.opUpdateInstance, some tillMessage⟩ ⟨0, true⟩ r).2.errcode =
      .success := by
  have run : (tillEvents.foldlM (Replica.step fun _ => true) {}).map
      (fun r => decide (ascii "10.0.0.1:9000" ∈ r.memory.instances.instanceInfo)) =
        some true := by decide
  obtain ⟨r, hr, here⟩ := Option.map_eq_some_iff.mp run
  have held := of_decide_eq_true here
  have built : InstanceCommand.updateInstance.make normalOnly tillOptions =
      .ok ⟨.opUpdateInstance, some tillMessage⟩ := by rfl
  have fits := (instance_command_fits_iff normalOnly tillOptions (fun _ => true) _ _ ⟨0, true⟩ r
    rfl built rfl fun _ => rfl).mpr ⟨by decide, fun add => by cases add⟩
  exact ⟨r, hr, held, fits, fits.changes (by decide) held⟩

def tillRemoval : InstanceRequest where
  opType := .opDropInstance
  instanceInfo := some {
    address := some (ascii "10.0.0.1:9000")
    namespaceName := some (ascii "shop")
    zoneName := some (ascii "east")
    servletName := some (ascii "till") }

/-- No instance can be removed by its parameters. -/
theorem till_remove_refused :
    ¬ ∀ (cmd : InstanceCommand) (opt : DiscoveryOptionContext) (request : InstanceRequest)
      (r : Replica), opt.jsonFile = [] → cmd.make normalOnly opt = .ok request →
      PassesChecks (fun _ => true) cmd request ⟨0, true⟩ r := by
  intro always
  have passes := (always .removeInstance tillOptions tillRemoval {} rfl (by rfl)).passes
  simp [processInstanceInfo, tillRemoval] at passes

end EA
