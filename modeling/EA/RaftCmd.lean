import EA.ClientUtility
import EA.RaftControl

set_option linter.unusedSectionVars false

namespace EA

open ByteString

/-- The options of `eacli raft set`. `--old` and `--new` are required ones. -/
structure RaftOptionContext where
  cluster : Bytes
  oldPeers : List Bytes
  newPeers : List Bytes
  force : Bool := false

def toRegionId (cluster : Bytes) : Except Status Int :=
  if cluster = ascii "discovery" then .ok 0
  else if cluster = ascii "tso" then .ok 2
  else if cluster = ascii "atomic" then .ok 1
  else .error ⟨.invalidArgument, ascii "unknown"⟩

def RaftControlRequest.addOldPeers (request : RaftControlRequest) (peer : Bytes) :
    RaftControlRequest :=
  { request with oldPeers := request.oldPeers ++ [peer] }

/-- The request that `run_set_cmd` sends. Both of its loops fill the old peers. -/
def runSetCmd (opt : RaftOptionContext) : Except Status RaftControlRequest :=
  match toRegionId opt.cluster with
  | .error err => .error err
  | .ok id =>
    let request : RaftControlRequest := { opType := .setPeer }
    let request := opt.oldPeers.foldl .addOldPeers request
    let request := opt.newPeers.foldl .addOldPeers request
    let request := if opt.force then { request with force := some true } else request
    .ok { request with regionId := id }

theorem foldl_addOldPeers (peers : List Bytes) (request : RaftControlRequest) :
    peers.foldl .addOldPeers request = { request with oldPeers := request.oldPeers ++ peers } := by
  induction peers generalizing request with
  | nil => rw [List.foldl_nil, List.append_nil]
  | cons peer peers ih => simp [ih, RaftControlRequest.addOldPeers]

theorem runSetCmd_eq {opt : RaftOptionContext} {request : RaftControlRequest}
    (built : runSetCmd opt = .ok request) :
    request.oldPeers = opt.oldPeers ++ opt.newPeers ∧ request.newPeers = [] ∧
      request.isForce = opt.force := by
  unfold runSetCmd at built
  split at built
  next => simp at built
  next id region =>
    simp only [foldl_addOldPeers, Except.ok.injEq] at built
    subst request
    cases force : opt.force <;> simp [RaftControlRequest.isForce]

theorem mapM_option_length {α β : Type} {f : α → Option β} {as : List α} {bs : List β}
    (h : as.mapM f = some bs) : bs.length = as.length := by
  induction as generalizing bs with
  | nil =>
    cases Option.some.inj h
    rfl
  | cons a as ih =>
    rw [List.mapM_cons] at h
    obtain ⟨b, _, h⟩ := Option.bind_eq_some_iff.mp h
    obtain ⟨rest, read, h⟩ := Option.bind_eq_some_iff.mp h
    cases Option.some.inj h
    rw [List.length_cons, List.length_cons, ih read]

section Set

variable {PeerId : Type} [Ord PeerId] [Std.TransOrd PeerId] [Std.LawfulEqOrd PeerId]
  [DecidableEq PeerId] {parse : Bytes → Option PeerId} {heartbeatFactor : Int}
  {node : RaftNode PeerId} {opt : RaftOptionContext} {request : RaftControlRequest}

/-- The request has both lists of peers as they were given, and the server does with it
what they ask for. -/
structure SetsPeers (parse : Bytes → Option PeerId) (heartbeatFactor : Int)
    (node : RaftNode PeerId) (opt : RaftOptionContext) (request : RaftControlRequest) : Prop where
  old : request.oldPeers = opt.oldPeers
  new : request.newPeers = opt.newPeers
  adds : opt.force = false → ∀ innerPeers oldPeers newPeers p, node.listPeers = .ok innerPeers →
    opt.oldPeers.mapM parse = some oldPeers → opt.newPeers.mapM parse = some newPeers →
    AddsPeer innerPeers oldPeers newPeers p →
    (setPeer parse heartbeatFactor node request).1 = some (.addPeer p)
  removes : opt.force = false → ∀ innerPeers oldPeers newPeers p,
    node.listPeers = .ok innerPeers → opt.oldPeers.mapM parse = some oldPeers →
    opt.newPeers.mapM parse = some newPeers → RemovesPeer innerPeers oldPeers newPeers p →
    node.Removable heartbeatFactor p →
    (setPeer parse heartbeatFactor node request).1 = some (.removePeer p)
  resets : opt.force = true → ∀ oldPeers newPeers, opt.oldPeers.mapM parse = some oldPeers →
    opt.newPeers.mapM parse = some newPeers →
    (setPeer parse heartbeatFactor node request).1 =
      some (.resetPeers (Std.ExtTreeSet.ofList newPeers))

/-- A request that has both lists right is served right. -/
theorem setsPeers_of_carried (old : request.oldPeers = opt.oldPeers)
    (new : request.newPeers = opt.newPeers) (force : request.isForce = opt.force)
    (distinct : ∀ innerPeers, node.listPeers = .ok innerPeers → innerPeers.Nodup) :
    SetsPeers parse heartbeatFactor node opt request where
  old := old
  new := new
  adds unforced innerPeers oldPeers newPeers p inner readOld readNew adds := by
    rw [← old] at readOld
    rw [← new] at readNew
    have asks : AsksToAdd parse node request p :=
      ⟨innerPeers, oldPeers, newPeers, ⟨inner, readOld, readNew⟩, adds⟩
    exact (setPeer_addPeer_iff (force.trans unforced) distinct).mpr asks
  removes unforced innerPeers oldPeers newPeers p inner readOld readNew removes removable := by
    rw [← old] at readOld
    rw [← new] at readNew
    have asks : AsksToRemove parse node request p :=
      ⟨innerPeers, oldPeers, newPeers, ⟨inner, readOld, readNew⟩, removes⟩
    exact (setPeer_removePeer_iff (force.trans unforced) distinct).mpr ⟨asks, removable⟩
  resets forced oldPeers newPeers readOld readNew := by
    rw [← old] at readOld
    rw [← new] at readNew
    exact setPeer_forced (force.trans forced) readOld readNew

/-- The command does what it is for exactly without new peers, which it requires. -/
theorem set_cmd_iff (parse : Bytes → Option PeerId) (heartbeatFactor : Int)
    (node : RaftNode PeerId) (opt : RaftOptionContext) (request : RaftControlRequest)
    (distinct : ∀ innerPeers, node.listPeers = .ok innerPeers → innerPeers.Nodup)
    (built : runSetCmd opt = .ok request) :
    SetsPeers parse heartbeatFactor node opt request ↔ opt.newPeers = [] := by
  obtain ⟨old, new, force⟩ := runSetCmd_eq built
  constructor
  · intro h
    rw [← h.new, new]
  · intro none
    rw [none, List.append_nil] at old
    exact setsPeers_of_carried old (new.trans none.symm) force distinct

/-- With old and new peers given, the server is asked for no change that it makes. -/
theorem set_cmd_rejected (parse : Bytes → Option PeerId) (heartbeatFactor : Int)
    (distinct : ∀ innerPeers, node.listPeers = .ok innerPeers → innerPeers.Nodup)
    (built : runSetCmd opt = .ok request) (unforced : opt.force = false)
    (givenOld : opt.oldPeers ≠ []) (givenNew : opt.newPeers ≠ []) :
    Rejected (setPeer parse heartbeatFactor node request) := by
  obtain ⟨old, new, force⟩ := runSetCmd_eq built
  rcases setPeer_outcome parse heartbeatFactor (force.trans unforced) distinct with
    ⟨p, asks, _⟩ | ⟨p, asks, _⟩ | ⟨_, rejected⟩
  · obtain ⟨_, _, newPeers, read, adds⟩ := asks
    have empty := mapM_option_length read.new
    rw [new, List.length_nil] at empty
    have mem : p ∈ newPeers := (adds.new p).mpr (Or.inr rfl)
    rw [List.length_eq_zero_iff.mp empty] at mem
    simp at mem
  · obtain ⟨_, oldPeers, newPeers, read, removes⟩ := asks
    have shrinks := removes.length (distinct _ read.inner)
    have sizeOld := mapM_option_length read.old
    have sizeNew := mapM_option_length read.new
    have pos := List.length_pos_iff.mpr givenOld
    have pos' := List.length_pos_iff.mpr givenNew
    rw [old, List.length_append] at sizeOld
    rw [new, List.length_nil] at sizeNew
    omega
  · exact rejected

end Set

def setTwoPeers : RaftOptionContext where
  cluster := ascii "discovery"
  oldPeers := [[1], [2]]
  newPeers := []

theorem set_cmd_without_new_peers :
    SetsPeers some 10 twoPeers setTwoPeers { opType := .setPeer, oldPeers := [[1], [2]] } := by
  have distinct : ∀ innerPeers, twoPeers.listPeers = .ok innerPeers → innerPeers.Nodup := by
    intro innerPeers eq
    cases eq
    decide
  exact (set_cmd_iff some 10 twoPeers setTwoPeers _ distinct rfl).mpr rfl

def addThirdPeer : RaftOptionContext where
  cluster := ascii "discovery"
  oldPeers := [[2], [1]]
  newPeers := [[3], [1], [2]]

/-- Asked to take in a third peer, the group of two does not. -/
theorem set_cmd_adds_no_peer :
    ¬ ∀ (node : RaftNode Bytes) (opt : RaftOptionContext) (request : RaftControlRequest),
      (∀ innerPeers, node.listPeers = .ok innerPeers → innerPeers.Nodup) →
      runSetCmd opt = .ok request → SetsPeers some 10 node opt request := by
  intro always
  have distinct : ∀ innerPeers, twoPeers.listPeers = .ok innerPeers → innerPeers.Nodup := by
    intro innerPeers eq
    cases eq
    decide
  have built : runSetCmd addThirdPeer =
      .ok { opType := .setPeer, oldPeers := [[2], [1], [3], [1], [2]] } := rfl
  have sets := always twoPeers addThirdPeer _ distinct built
  have adds : AddsPeer [[1], [2]] [[2], [1]] [[3], [1], [2]] ([3] : Bytes) :=
    (addsPeer_iff (by decide)).mpr ⟨by decide, by decide, by decide⟩
  have rejected := set_cmd_rejected some 10 distinct built rfl
    (by decide) (by decide)
  exact rejected.noCall _ (sets.adds rfl _ _ _ _ rfl rfl rfl adds)

end EA
