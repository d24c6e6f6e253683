import EA.DiscoveryMessages

set_option linter.unusedSectionVars false

namespace EA

section Model

variable (PeerId : Type) [Ord PeerId] [Std.TransOrd PeerId] [Std.LawfulEqOrd PeerId]
  [DecidableEq PeerId]

/-- `braft::Configuration`, which keeps its peers in a set. -/
abbrev Configuration := Std.ExtTreeSet PeerId

structure PeerStatus where
  consecutiveErrorTimes : Int

/-- What `braft::Node` tells the handler. `listPeers` fails with a status code, and
`resetPeers` tells whether the node takes a configuration. -/
structure RaftNode where
  listPeers : Except Int (List PeerId)
  leaderAddr : Bytes := []
  stableFollowers : Table PeerId PeerStatus := ∅
  resetPeers : Configuration PeerId → Bool

/-- What the handler asks of the node. -/
inductive NodeCall where
  | addPeer (peer : PeerId)
  | removePeer (peer : PeerId)
  | resetPeers (conf : Configuration PeerId)

inductive RaftControlOp where
  | setPeer | snapShot | shutDown | transLeader | getLeader | listPeer | resetVoteTime
deriving DecidableEq

structure RaftControlRequest where
  opType : RaftControlOp
  regionId : Int := 0
  oldPeers : List Bytes := []
  newPeers : List Bytes := []
  force : Option Bool := none
deriving DecidableEq

structure RaftControlResponse where
  errcode : Option ErrCode := none
  errmsg : String := ""
  leader : Option Bytes := none

variable {PeerId}

/-- The peer that `conf` still has when `peers` are removed from it, if it is one. -/
def onlyLeft (conf : Configuration PeerId) (peers : List PeerId) : Option PeerId :=
  match (peers.foldl (fun conf peer => conf.erase peer) conf).toList with
  | [peer] => some peer
  | _ => none

/-- `size() - 1` of a vector, which is unsigned. -/
def sizeMinusOne (size : Nat) : Nat := if size = 0 then 2 ^ 64 - 1 else size - 1

def diffPeers (oldPeers newPeers : List PeerId) : Option PeerId :=
  let oldConf : Configuration PeerId := Std.ExtTreeSet.ofList oldPeers
  let newConf : Configuration PeerId := Std.ExtTreeSet.ofList newPeers
  if oldPeers.length = sizeMinusOne newPeers.length ∧ ∀ peer ∈ oldPeers, peer ∈ newConf then
    onlyLeft newConf oldPeers
  else if oldPeers.length = newPeers.length + 1 ∧ ∀ peer ∈ newPeers, peer ∈ oldConf then
    onlyLeft oldConf newPeers
  else none

/-- The loop over the stable followers, which gives `self_faulty` and `other_faulty`.
It ends where `peer` itself is found faulty. -/
def faultyPeers (heartbeatFactor : Int) (peer : PeerId) :
    List (PeerId × PeerStatus) → Bool → Bool × Bool
  | [], otherFaulty => (false, otherFaulty)
  | (follower, status) :: rest, otherFaulty =>
    if follower = peer then
      if status.consecutiveErrorTimes > heartbeatFactor then (true, otherFaulty)
      else faultyPeers heartbeatFactor peer rest otherFaulty
    else if status.consecutiveErrorTimes > heartbeatFactor then
      faultyPeers heartbeatFactor peer rest true
    else faultyPeers heartbeatFactor peer rest otherFaulty

def refusedChange (errcode : ErrCode) (errmsg : String) :
    Option (NodeCall PeerId) × RaftControlResponse :=
  (none, { errcode := some errcode, errmsg })

/-- The part of `_set_peer` that removes a peer, with its look at the followers. -/
def removeUnlessOtherFaulty (heartbeatFactor : Int) (node : RaftNode PeerId) (peer : PeerId) :
    Option (NodeCall PeerId) × RaftControlResponse :=
  let (selfFaulty, otherFaulty) :=
    faultyPeers heartbeatFactor peer node.stableFollowers.toList false
  if selfFaulty || (!selfFaulty && !otherFaulty) then (some (.removePeer peer), {})
  else refusedChange .inputParamError "other peer is faulty"

/-- The part of `_set_peer` after the node has listed its peers. Where it adds or removes
a peer the response is left to the node's answer. -/
def changePeers (heartbeatFactor : Int) (node : RaftNode PeerId)
    (innerPeers oldPeers newPeers : List PeerId) :
    Option (NodeCall PeerId) × RaftControlResponse :=
  if innerPeers.length ≠ oldPeers.length then
    refusedChange .peerNotEqual "peer size not equal"
  else if ∃ peer ∈ innerPeers, peer ∉ oldPeers then
    refusedChange .peerNotEqual "peer not equal"
  else if newPeers.length = oldPeers.length + 1 then
    match diffPeers oldPeers newPeers with
    | some peer => (some (.addPeer peer), {})
    | none => refusedChange .inputParamError "diff peer fail when add peer"
  else if oldPeers.length = newPeers.length + 1 then
    match diffPeers oldPeers newPeers with
    | some peer => removeUnlessOtherFaulty heartbeatFactor node peer
    | none => refusedChange .inputParamError "diff peer fail when remove peer"
  else refusedChange .inputParamError "set peer fail"

def forceSetPeer (node : RaftNode PeerId) (newPeers : List PeerId) :
    Option (NodeCall PeerId) × RaftControlResponse :=
  let newConf : Configuration PeerId := Std.ExtTreeSet.ofList newPeers
  if node.resetPeers newConf then
    (some (.resetPeers newConf), { errcode := some .success, errmsg := "force set peer success" })
  else
    (some (.resetPeers newConf),
      { errcode := some .internalError, errmsg := "force set peer fail" })

def RaftControlRequest.isForce (request : RaftControlRequest) : Bool := request.force.getD false

/-- `_set_peer`. `parse` is `PeerId::parse`, and the factor is the flag
`raft_election_heartbeat_factor`. -/
def setPeer (parse : Bytes → Option PeerId) (heartbeatFactor : Int) (node : RaftNode PeerId)
    (request : RaftControlRequest) : Option (NodeCall PeerId) × RaftControlResponse :=
  match request.oldPeers.mapM parse with
  | none => refusedChange .inputParamError "old peer parse fail"
  | some oldPeers =>
    match request.newPeers.mapM parse with
    | none => refusedChange .inputParamError "new peer parse fail"
    | some newPeers =>
      if request.isForce then forceSetPeer node newPeers
      else
        match node.listPeers with
        | .error code =>
          if code = 1 then
            (none, { errcode := some .notLeader, leader := some node.leaderAddr })
          else refusedChange .peerNotEqual "node list peer fail"
        | .ok innerPeers => changePeers heartbeatFactor node innerPeers oldPeers newPeers

end Model

section Lists

variable {α : Type} {longer shorter : List α} {p : α}

theorem eq_singleton_iff {l : List α} (distinct : l.Nodup) :
    l = [p] ↔ ∀ q, q ∈ l ↔ q = p := by
  constructor
  · rintro rfl q
    exact List.mem_singleton
  · intro only
    have perm : l.Perm [p] :=
      (List.perm_ext_iff_of_nodup distinct (List.nodup_singleton p)).mpr fun q => by
        rw [only q, List.mem_singleton]
    exact List.perm_singleton.mp perm

/-- Of two lists that differ by one in length, where one has no repeats and the longer
one has all of the shorter one and just one peer more, the longer one is the shorter
one with this peer. -/
theorem perm_cons_iff (distinct : longer.Nodup ∨ shorter.Nodup)
    (length : longer.length = shorter.length + 1) :
    ((∀ q ∈ shorter, q ∈ longer) ∧ ∀ q, q ∈ longer ∧ q ∉ shorter ↔ q = p) ↔
      longer.Perm (p :: shorter) ∧ p ∉ shorter := by
  constructor
  · rintro ⟨subset, only⟩
    obtain ⟨mem, outside⟩ := (only p).mpr rfl
    refine ⟨?_, outside⟩
    rcases distinct with distinct | distinct
    · have within : longer ⊆ p :: shorter := by
        intro q hq
        by_cases old : q ∈ shorter
        · exact List.mem_cons_of_mem p old
        · rw [(only q).mp ⟨hq, old⟩]
          exact List.mem_cons_self
      exact (List.subperm_of_subset distinct within).perm_of_length_le (by simp [length])
    · have within : p :: shorter ⊆ longer := List.cons_subset.mpr ⟨mem, fun q hq => subset q hq⟩
      have distinct' : (p :: shorter).Nodup := List.nodup_cons.mpr ⟨outside, distinct⟩
      exact ((List.subperm_of_subset distinct' within).perm_of_length_le (by simp [length])).symm
  · rintro ⟨perm, outside⟩
    have mem : ∀ q, q ∈ longer ↔ q = p ∨ q ∈ shorter := fun q => by
      rw [perm.mem_iff, List.mem_cons]
    refine ⟨fun q old => (mem q).mpr (Or.inr old), fun q => ?_⟩
    rw [mem q]
    constructor
    · rintro ⟨eq | old, new⟩
      · exact eq
      · exact absurd old new
    · rintro rfl
      exact ⟨Or.inl rfl, outside⟩

end Lists

section Peers

variable {PeerId : Type} [Ord PeerId] [Std.TransOrd PeerId] [Std.LawfulEqOrd PeerId]
  {conf : Configuration PeerId} {peers oldPeers newPeers : List PeerId} {p : PeerId}

theorem mem_removeAll {q : PeerId} :
    q ∈ peers.foldl (fun conf peer => conf.erase peer) conf ↔ q ∈ conf ∧ q ∉ peers := by
  induction peers generalizing conf with
  | nil => simp
  | cons peer peers ih =>
    have erased : q ∈ conf.erase peer ↔ q ≠ peer ∧ q ∈ conf := by
      rw [Std.ExtTreeSet.mem_erase, ne_eq, Std.LawfulEqOrd.compare_eq_iff_eq, eq_comm]
    rw [List.foldl_cons, ih, erased, List.mem_cons, not_or]
    constructor
    · rintro ⟨⟨other, mem⟩, outside⟩
      exact ⟨mem, other, outside⟩
    · rintro ⟨mem, other, outside⟩
      exact ⟨⟨other, mem⟩, outside⟩

theorem onlyLeft_eq_some :
    onlyLeft conf peers = some p ↔ ∀ q, q ∈ conf ∧ q ∉ peers ↔ q = p := by
  have distinct : (peers.foldl (fun conf peer => conf.erase peer) conf).toList.Nodup :=
    Std.ExtTreeSet.distinct_toList.imp fun apart eq =>
      apart (Std.LawfulEqOrd.compare_eq_iff_eq.mpr eq)
  have alone := eq_singleton_iff (p := p) distinct
  simp only [Std.ExtTreeSet.mem_toList, mem_removeAll] at alone
  rw [← alone, onlyLeft]
  split
  next peer left => rw [left, Option.some.injEq, List.cons.injEq, and_iff_left rfl]
  next several =>
    constructor
    · intro eq
      simp at eq
    · intro left
      exact absurd left (several p)

theorem mem_configuration {q : PeerId} :
    q ∈ (Std.ExtTreeSet.ofList peers : Configuration PeerId) ↔ q ∈ peers := by
  classical
  rw [Std.ExtTreeSet.mem_ofList, List.contains_iff_mem]

theorem diffPeers_add (distinct : oldPeers.Nodup)
    (length : newPeers.length = oldPeers.length + 1) :
    diffPeers oldPeers newPeers = some p ↔ newPeers.Perm (p :: oldPeers) ∧ p ∉ oldPeers := by
  have fits : oldPeers.length = sizeMinusOne newPeers.length := by
    unfold sizeMinusOne
    split <;> omega
  rw [← perm_cons_iff (Or.inr distinct) length]
  unfold diffPeers
  dsimp only
  split
  next grows =>
    simp only [onlyLeft_eq_some, mem_configuration] at grows ⊢
    rw [and_iff_right grows.2]
  next fails =>
    have missing : ¬ ∀ q ∈ oldPeers, q ∈ newPeers := fun subset =>
      fails ⟨fits, fun q hq => mem_configuration.mpr (subset q hq)⟩
    rw [if_neg (by omega)]
    simp [missing]

theorem diffPeers_remove (distinct : oldPeers.Nodup)
    (length : oldPeers.length = newPeers.length + 1) :
    diffPeers oldPeers newPeers = some p ↔ oldPeers.Perm (p :: newPeers) ∧ p ∉ newPeers := by
  -- no new peers at all would be one less than a size that the one old peer has not
  have wrapped : ¬ oldPeers.length = sizeMinusOne newPeers.length := by
    unfold sizeMinusOne
    split <;> omega
  rw [← perm_cons_iff (Or.inl distinct) length]
  unfold diffPeers
  dsimp only
  rw [if_neg fun h => wrapped h.1]
  split
  next shrinks =>
    simp only [onlyLeft_eq_some, mem_configuration] at shrinks ⊢
    rw [and_iff_right shrinks.2]
  next fails =>
    have missing : ¬ ∀ q ∈ newPeers, q ∈ oldPeers := fun subset =>
      fails ⟨length, fun q hq => mem_configuration.mpr (subset q hq)⟩
    simp [missing]

end Peers

section Memberships

variable {PeerId : Type} {innerPeers oldPeers newPeers : List PeerId} {p : PeerId}

/-- The old peers are the current ones, and the new ones these and `p`. -/
structure AddsPeer (current oldPeers newPeers : List PeerId) (p : PeerId) : Prop where
  old : oldPeers.Perm current
  distinct : newPeers.Nodup
  fresh : p ∉ current
  new : ∀ q, q ∈ newPeers ↔ q ∈ current ∨ q = p

/-- The old peers are the current ones, and the new ones these without `p`. -/
structure RemovesPeer (current oldPeers newPeers : List PeerId) (p : PeerId) : Prop where
  old : oldPeers.Perm current
  distinct : newPeers.Nodup
  present : p ∈ current
  new : ∀ q, q ∈ newPeers ↔ q ∈ current ∧ q ≠ p

theorem addsPeer_iff (distinct : innerPeers.Nodup) :
    AddsPeer innerPeers oldPeers newPeers p ↔
      oldPeers.Perm innerPeers ∧ newPeers.Perm (p :: oldPeers) ∧ p ∉ oldPeers := by
  constructor
  · intro h
    have fresh : p ∉ oldPeers := fun mem => h.fresh (h.old.mem_iff.mp mem)
    have distinct' : (p :: oldPeers).Nodup :=
      List.nodup_cons.mpr ⟨fresh, h.old.nodup_iff.mpr distinct⟩
    refine ⟨h.old, (List.perm_ext_iff_of_nodup h.distinct distinct').mpr fun q => ?_, fresh⟩
    rw [h.new, List.mem_cons, h.old.mem_iff, or_comm]
  · rintro ⟨old, new, fresh⟩
    refine ⟨old, ?_, fun mem => fresh (old.mem_iff.mpr mem), fun q => ?_⟩
    · exact new.nodup_iff.mpr (List.nodup_cons.mpr ⟨fresh, old.nodup_iff.mpr distinct⟩)
    · rw [new.mem_iff, List.mem_cons, old.mem_iff, or_comm]

theorem removesPeer_iff (distinct : innerPeers.Nodup) :
    RemovesPeer innerPeers oldPeers newPeers p ↔
      oldPeers.Perm innerPeers ∧ oldPeers.Perm (p :: newPeers) ∧ p ∉ newPeers := by
  constructor
  · intro h
    have gone : p ∉ newPeers := fun mem => ((h.new p).mp mem).2 rfl
    have distinct' : (p :: newPeers).Nodup := List.nodup_cons.mpr ⟨gone, h.distinct⟩
    refine ⟨h.old, ?_, gone⟩
    refine (List.perm_ext_iff_of_nodup (h.old.nodup_iff.mpr distinct) distinct').mpr fun q => ?_
    rw [h.old.mem_iff, List.mem_cons, h.new]
    by_cases same : q = p
    · subst q
      simp [h.present]
    · simp [same]
  · rintro ⟨old, new, gone⟩
    have distinct' := List.nodup_cons.mp (new.nodup_iff.mp (old.nodup_iff.mpr distinct))
    refine ⟨old, distinct'.2, ?_, fun q => ?_⟩
    · exact old.mem_iff.mp (new.mem_iff.mpr List.mem_cons_self)
    · rw [← old.mem_iff, new.mem_iff, List.mem_cons]
      constructor
      · intro mem
        refine ⟨Or.inr mem, ?_⟩
        rintro rfl
        exact gone mem
      · rintro ⟨eq | mem, other⟩
        · exact absurd eq other
        · exact mem

theorem AddsPeer.length (distinct : innerPeers.Nodup)
    (h : AddsPeer innerPeers oldPeers newPeers p) : newPeers.length = oldPeers.length + 1 :=
  ((addsPeer_iff distinct).mp h).2.1.length_eq

theorem RemovesPeer.length (distinct : innerPeers.Nodup)
    (h : RemovesPeer innerPeers oldPeers newPeers p) : oldPeers.length = newPeers.length + 1 :=
  ((removesPeer_iff distinct).mp h).2.1.length_eq

theorem AddsPeer.unique {q : PeerId} (h : AddsPeer innerPeers oldPeers newPeers p)
    (h' : AddsPeer innerPeers oldPeers newPeers q) : p = q := by
  have mem : p ∈ newPeers := (h.new p).mpr (Or.inr rfl)
  rcases (h'.new p).mp mem with current | eq
  · exact absurd current h.fresh
  · exact eq

theorem RemovesPeer.unique {q : PeerId} (h : RemovesPeer innerPeers oldPeers newPeers p)
    (h' : RemovesPeer innerPeers oldPeers newPeers q) : p = q := by
  by_contra apart
  have mem : p ∈ newPeers := (h'.new p).mpr ⟨h.present, apart⟩
  exact ((h.new p).mp mem).2 rfl

theorem AddsPeer.not_removes {q : PeerId} (h : AddsPeer innerPeers oldPeers newPeers p) :
    ¬ RemovesPeer innerPeers oldPeers newPeers q := by
  intro h'
  have mem : p ∈ newPeers := (h.new p).mpr (Or.inr rfl)
  exact h.fresh ((h'.new p).mp mem).1

end Memberships

section Followers

variable {PeerId : Type} [DecidableEq PeerId]

theorem faultyPeers_self (heartbeatFactor : Int) (p : PeerId)
    (followers : List (PeerId × PeerStatus)) (otherFaulty : Bool) :
    (faultyPeers heartbeatFactor p followers otherFaulty).1 = true ↔
      ∃ f ∈ followers, f.1 = p ∧ heartbeatFactor < f.2.consecutiveErrorTimes := by
  induction followers generalizing otherFaulty with
  | nil => simp [faultyPeers]
  | cons follower followers ih =>
    obtain ⟨q, status⟩ := follower
    simp only [List.mem_cons, exists_eq_or_imp]
    unfold faultyPeers
    split
    next same =>
      subst q
      split
      next faulty => simp [faulty]
      next within =>
        rw [ih]
        simp [within]
    next other => split <;> rw [ih] <;> simp [other]

/-- Where the loop did not end early it has seen every follower. -/
theorem faultyPeers_other (heartbeatFactor : Int) (p : PeerId)
    (followers : List (PeerId × PeerStatus)) (otherFaulty : Bool)
    (healthy : (faultyPeers heartbeatFactor p followers otherFaulty).1 = false) :
    (faultyPeers heartbeatFactor p followers otherFaulty).2 = true ↔
      otherFaulty = true ∨
        ∃ f ∈ followers, f.1 ≠ p ∧ heartbeatFactor < f.2.consecutiveErrorTimes := by
  induction followers generalizing otherFaulty with
  | nil => simp [faultyPeers]
  | cons follower followers ih =>
    obtain ⟨q, status⟩ := follower
    simp only [List.mem_cons, exists_eq_or_imp]
    unfold faultyPeers at healthy ⊢
    split at healthy
    next same =>
      subst q
      rw [if_pos rfl]
      split at healthy
      next => simp at healthy
      next within =>
        rw [if_neg within, ih _ healthy]
        simp
    next other =>
      rw [if_neg other]
      split at healthy
      next faulty =>
        rw [if_pos faulty, ih _ healthy]
        simp [other, faulty]
      next within =>
        rw [if_neg within, ih _ healthy]
        simp [within]

end Followers

section Changes

variable {PeerId : Type} [Ord PeerId] [Std.TransOrd PeerId] [Std.LawfulEqOrd PeerId]
  [DecidableEq PeerId] {parse : Bytes → Option PeerId} {heartbeatFactor : Int}
  {node : RaftNode PeerId} {innerPeers oldPeers newPeers : List PeerId} {p : PeerId}

/-- A follower with more errors than the limit. -/
def RaftNode.Faulty (node : RaftNode PeerId) (heartbeatFactor : Int) (q : PeerId) : Prop :=
  ∃ status, node.stableFollowers[q]? = some status ∧ heartbeatFactor < status.consecutiveErrorTimes

/-- The health test of a removal. -/
def RaftNode.Removable (node : RaftNode PeerId) (heartbeatFactor : Int) (p : PeerId) : Prop :=
  node.Faulty heartbeatFactor p ∨ ∀ q, q ≠ p → ¬ node.Faulty heartbeatFactor q

theorem RaftNode.faulty_iff {q : PeerId} :
    node.Faulty heartbeatFactor q ↔ ∃ f ∈ node.stableFollowers.toList,
      f.1 = q ∧ heartbeatFactor < f.2.consecutiveErrorTimes := by
  constructor
  · rintro ⟨status, found, many⟩
    exact ⟨(q, status), Std.ExtTreeMap.mem_toList_iff_getElem?_eq_some.mpr found, rfl, many⟩
  · rintro ⟨⟨_, status⟩, mem, rfl, many⟩
    exact ⟨status, Std.ExtTreeMap.mem_toList_iff_getElem?_eq_some.mp mem, many⟩

/-- An answer that asks nothing of the node and reports an error. -/
def Rejected (r : Option (NodeCall PeerId) × RaftControlResponse) : Prop :=
  r.1 = none ∧ ∃ code, r.2.errcode = some code ∧ code ≠ .success

theorem Rejected.noCall {r : Option (NodeCall PeerId) × RaftControlResponse} (h : Rejected r)
    (call : NodeCall PeerId) : r.1 ≠ some call := by
  rw [h.1]
  simp

theorem rejected_refusedChange {errcode : ErrCode} {errmsg : String} (h : errcode ≠ .success) :
    Rejected (refusedChange errcode errmsg : Option (NodeCall PeerId) × RaftControlResponse) :=
  ⟨rfl, errcode, rfl, h⟩

theorem removeUnlessOtherFaulty_cases (heartbeatFactor : Int) (node : RaftNode PeerId)
    (p : PeerId) :
    node.Removable heartbeatFactor p ∧
        removeUnlessOtherFaulty heartbeatFactor node p = (some (.removePeer p), {}) ∨
      ¬ node.Removable heartbeatFactor p ∧
        Rejected (removeUnlessOtherFaulty heartbeatFactor node p) := by
  have self := faultyPeers_self heartbeatFactor p node.stableFollowers.toList false
  have other := faultyPeers_other heartbeatFactor p node.stableFollowers.toList false
  rw [← RaftNode.faulty_iff] at self
  have others : (∃ f ∈ node.stableFollowers.toList,
      f.1 ≠ p ∧ heartbeatFactor < f.2.consecutiveErrorTimes) ↔
      ∃ q, q ≠ p ∧ node.Faulty heartbeatFactor q := by
    simp only [RaftNode.faulty_iff]
    constructor
    · rintro ⟨f, mem, apart, many⟩
      exact ⟨f.1, apart, f, mem, rfl, many⟩
    · rintro ⟨q, apart, f, mem, rfl, many⟩
      exact ⟨f, mem, apart, many⟩
  rw [others] at other
  unfold removeUnlessOtherFaulty
  generalize faultyPeers heartbeatFactor p node.stableFollowers.toList false = found at self other
  obtain ⟨selfFaulty, otherFaulty⟩ := found
  cases selfFaulty with
  | true => exact Or.inl ⟨Or.inl (self.mp rfl), rfl⟩
  | false =>
    have spared : ¬ node.Faulty heartbeatFactor p := fun faulty => by simpa using self.mpr faulty
    have seen := other rfl
    cases otherFaulty with
    | true =>
      obtain ⟨q, apart, faulty⟩ := (seen.mp rfl).resolve_left (by simp)
      refine Or.inr ⟨?_, rejected_refusedChange (by simp)⟩
      rintro (self | none)
      · exact spared self
      · exact none q apart faulty
    | false =>
      refine Or.inl ⟨Or.inr fun q apart faulty => ?_, rfl⟩
      simpa using seen.mpr (Or.inr ⟨q, apart, faulty⟩)

/-- What `_set_peer` makes of two lists of peers, with all its size and membership tests. -/
theorem changePeers_cases (heartbeatFactor : Int) (node : RaftNode PeerId)
    (distinct : innerPeers.Nodup) (oldPeers newPeers : List PeerId) :
    (∃ p, AddsPeer innerPeers oldPeers newPeers p ∧
      changePeers heartbeatFactor node innerPeers oldPeers newPeers = (some (.addPeer p), {})) ∨
    (∃ p, RemovesPeer innerPeers oldPeers newPeers p ∧
      changePeers heartbeatFactor node innerPeers oldPeers newPeers =
        removeUnlessOtherFaulty heartbeatFactor node p) ∨
    (∀ p, ¬ AddsPeer innerPeers oldPeers newPeers p ∧
        ¬ RemovesPeer innerPeers oldPeers newPeers p) ∧
      Rejected (changePeers heartbeatFactor node innerPeers oldPeers newPeers) := by
  unfold changePeers
  split
  next sizes =>
    refine Or.inr (Or.inr ⟨fun p => ⟨fun h => ?_, fun h => ?_⟩, rejected_refusedChange (by simp)⟩)
    · exact sizes h.old.length_eq.symm
    · exact sizes h.old.length_eq.symm
  next sizes =>
  split
  next missing =>
    obtain ⟨q, current, outside⟩ := missing
    refine Or.inr (Or.inr ⟨fun p => ⟨fun h => ?_, fun h => ?_⟩, rejected_refusedChange (by simp)⟩)
    · exact outside (h.old.mem_iff.mpr current)
    · exact outside (h.old.mem_iff.mpr current)
  next within =>
  have subset : innerPeers ⊆ oldPeers := by
    intro q current
    by_contra outside
    exact within ⟨q, current, outside⟩
  have same : oldPeers.Perm innerPeers :=
    ((List.subperm_of_subset distinct subset).perm_of_length_le (by omega)).symm
  have distinct' : oldPeers.Nodup := same.nodup_iff.mpr distinct
  split
  next grows =>
    have noRemoval : ∀ p, ¬ RemovesPeer innerPeers oldPeers newPeers p := fun p h => by
      have shrinks := h.length distinct
      omega
    split
    next p found =>
      have adds := (diffPeers_add distinct' grows).mp found
      exact Or.inl ⟨p, (addsPeer_iff distinct).mpr ⟨same, adds⟩, rfl⟩
    next none =>
      refine Or.inr (Or.inr ⟨fun p => ⟨fun h => ?_, noRemoval p⟩, rejected_refusedChange (by simp)⟩)
      have found := (diffPeers_add distinct' grows).mpr ((addsPeer_iff distinct).mp h).2
      rw [none] at found
      simp at found
  next notGrows =>
  have noAddition : ∀ p, ¬ AddsPeer innerPeers oldPeers newPeers p := fun p h =>
    notGrows (h.length distinct)
  split
  next shrinks =>
    split
    next p found =>
      have removes := (diffPeers_remove distinct' shrinks).mp found
      exact Or.inr (Or.inl ⟨p, (removesPeer_iff distinct).mpr ⟨same, removes⟩, rfl⟩)
    next none =>
      refine Or.inr (Or.inr ⟨fun p => ⟨noAddition p, fun h => ?_⟩,
        rejected_refusedChange (by simp)⟩)
      have found := (diffPeers_remove distinct' shrinks).mpr ((removesPeer_iff distinct).mp h).2
      rw [none] at found
      simp at found
  next notShrinks =>
    exact Or.inr (Or.inr ⟨fun p => ⟨noAddition p, fun h => notShrinks (h.length distinct)⟩,
      rejected_refusedChange (by simp)⟩)

/-- The lists of peers that a request is about, for a node that lists its own. -/
structure ReadPeers (parse : Bytes → Option PeerId) (node : RaftNode PeerId)
    (request : RaftControlRequest) (innerPeers oldPeers newPeers : List PeerId) : Prop where
  inner : node.listPeers = .ok innerPeers
  old : request.oldPeers.mapM parse = some oldPeers
  new : request.newPeers.mapM parse = some newPeers

theorem setPeer_cases (parse : Bytes → Option PeerId) (heartbeatFactor : Int)
    (node : RaftNode PeerId) {request : RaftControlRequest} (notForced : request.isForce = false) :
    (∃ innerPeers oldPeers newPeers, ReadPeers parse node request innerPeers oldPeers newPeers ∧
      setPeer parse heartbeatFactor node request =
        changePeers heartbeatFactor node innerPeers oldPeers newPeers) ∨
    (∀ innerPeers oldPeers newPeers,
        ¬ ReadPeers parse node request innerPeers oldPeers newPeers) ∧
      Rejected (setPeer parse heartbeatFactor node request) := by
  unfold setPeer
  split
  next bad =>
    refine Or.inr ⟨fun C O N h => ?_, rejected_refusedChange (by simp)⟩
    rw [h.old] at bad
    simp at bad
  next oldPeers old =>
  split
  next bad =>
    refine Or.inr ⟨fun C O N h => ?_, rejected_refusedChange (by simp)⟩
    rw [h.new] at bad
    simp at bad
  next newPeers new =>
  rw [notForced, if_neg (by decide)]
  split
  next code failed =>
    have unread : ∀ C O N, ¬ ReadPeers parse node request C O N := fun C O N h => by
      rw [h.inner] at failed
      simp at failed
    refine Or.inr ⟨unread, ?_⟩
    split
    next => exact ⟨rfl, .notLeader, rfl, by simp⟩
    next => exact rejected_refusedChange (by simp)
  next innerPeers inner =>
    exact Or.inl ⟨innerPeers, oldPeers, newPeers, ⟨inner, old, new⟩, rfl⟩

theorem setPeer_forced {request : RaftControlRequest} (forced : request.isForce = true)
    (old : request.oldPeers.mapM parse = some oldPeers)
    (new : request.newPeers.mapM parse = some newPeers) :
    (setPeer parse heartbeatFactor node request).1 =
      some (.resetPeers (Std.ExtTreeSet.ofList newPeers)) := by
  simp only [setPeer, old, new, forced, if_true, forceSetPeer]
  split <;> rfl

theorem ReadPeers.unique {request : RaftControlRequest} {inner' old' new' : List PeerId}
    (h : ReadPeers parse node request innerPeers oldPeers newPeers)
    (h' : ReadPeers parse node request inner' old' new') :
    innerPeers = inner' ∧ oldPeers = old' ∧ newPeers = new' :=
  ⟨Except.ok.inj (h.inner.symm.trans h'.inner), Option.some.inj (h.old.symm.trans h'.old),
    Option.some.inj (h.new.symm.trans h'.new)⟩

/-- A request to add the peer `p` to the ones that the node lists. -/
def AsksToAdd (parse : Bytes → Option PeerId) (node : RaftNode PeerId)
    (request : RaftControlRequest) (p : PeerId) : Prop :=
  ∃ innerPeers oldPeers newPeers, ReadPeers parse node request innerPeers oldPeers newPeers ∧
    AddsPeer innerPeers oldPeers newPeers p

/-- A request to remove the peer `p` from the ones that the node lists. -/
def AsksToRemove (parse : Bytes → Option PeerId) (node : RaftNode PeerId)
    (request : RaftControlRequest) (p : PeerId) : Prop :=
  ∃ innerPeers oldPeers newPeers, ReadPeers parse node request innerPeers oldPeers newPeers ∧
    RemovesPeer innerPeers oldPeers newPeers p

theorem AsksToAdd.unique {request : RaftControlRequest} {q : PeerId}
    (h : AsksToAdd parse node request p) (h' : AsksToAdd parse node request q) : p = q := by
  obtain ⟨C, O, N, read, adds⟩ := h
  obtain ⟨C', O', N', read', adds'⟩ := h'
  obtain ⟨rfl, rfl, rfl⟩ := read.unique read'
  exact adds.unique adds'

theorem AsksToRemove.unique {request : RaftControlRequest} {q : PeerId}
    (h : AsksToRemove parse node request p) (h' : AsksToRemove parse node request q) : p = q := by
  obtain ⟨C, O, N, read, removes⟩ := h
  obtain ⟨C', O', N', read', removes'⟩ := h'
  obtain ⟨rfl, rfl, rfl⟩ := read.unique read'
  exact removes.unique removes'

theorem AsksToAdd.not_remove {request : RaftControlRequest} {q : PeerId}
    (h : AsksToAdd parse node request p) : ¬ AsksToRemove parse node request q := by
  rintro ⟨C', O', N', read', removes⟩
  obtain ⟨C, O, N, read, adds⟩ := h
  obtain ⟨rfl, rfl, rfl⟩ := read.unique read'
  exact adds.not_removes removes

theorem setPeer_outcome (parse : Bytes → Option PeerId) (heartbeatFactor : Int)
    {request : RaftControlRequest} (notForced : request.isForce = false)
    (distinct : ∀ innerPeers, node.listPeers = .ok innerPeers → innerPeers.Nodup) :
    (∃ p, AsksToAdd parse node request p ∧
      setPeer parse heartbeatFactor node request = (some (.addPeer p), {})) ∨
    (∃ p, AsksToRemove parse node request p ∧
      setPeer parse heartbeatFactor node request =
        removeUnlessOtherFaulty heartbeatFactor node p) ∨
    (∀ p, ¬ AsksToAdd parse node request p ∧ ¬ AsksToRemove parse node request p) ∧
      Rejected (setPeer parse heartbeatFactor node request) := by
  rcases setPeer_cases parse heartbeatFactor node notForced with
    ⟨C, O, N, read, eq⟩ | ⟨unread, rejected⟩
  · rw [eq]
    rcases changePeers_cases heartbeatFactor node (distinct C read.inner) O N with
      ⟨p, adds, result⟩ | ⟨p, removes, result⟩ | ⟨neither, rejected⟩
    · exact Or.inl ⟨p, ⟨C, O, N, read, adds⟩, result⟩
    · exact Or.inr (Or.inl ⟨p, ⟨C, O, N, read, removes⟩, result⟩)
    · refine Or.inr (Or.inr ⟨fun p => ⟨?_, ?_⟩, rejected⟩)
      · rintro ⟨C', O', N', read', adds⟩
        obtain ⟨rfl, rfl, rfl⟩ := read.unique read'
        exact (neither p).1 adds
      · rintro ⟨C', O', N', read', removes⟩
        obtain ⟨rfl, rfl, rfl⟩ := read.unique read'
        exact (neither p).2 removes
  · refine Or.inr (Or.inr ⟨fun p => ⟨?_, ?_⟩, rejected⟩)
    · rintro ⟨C, O, N, read, _⟩
      exact unread C O N read
    · rintro ⟨C, O, N, read, _⟩
      exact unread C O N read

theorem setPeer_addPeer_iff {request : RaftControlRequest} (notForced : request.isForce = false)
    (distinct : ∀ innerPeers, node.listPeers = .ok innerPeers → innerPeers.Nodup) :
    (setPeer parse heartbeatFactor node request).1 = some (.addPeer p) ↔
      AsksToAdd parse node request p := by
  rcases setPeer_outcome parse heartbeatFactor notForced distinct
    with ⟨q, asks, result⟩ | ⟨q, asks, result⟩ | ⟨neither, rejected⟩
  · rw [result, Option.some.injEq, NodeCall.addPeer.injEq]
    constructor
    · rintro rfl
      exact asks
    · exact asks.unique
  · refine iff_of_false ?_ fun h => h.not_remove asks
    rw [result]
    rcases removeUnlessOtherFaulty_cases heartbeatFactor node q with ⟨_, called⟩ | ⟨_, rejected⟩
    · simp [called]
    · exact rejected.noCall _
  · exact iff_of_false (rejected.noCall _) (neither p).1

theorem setPeer_removePeer_iff {request : RaftControlRequest} (notForced : request.isForce = false)
    (distinct : ∀ innerPeers, node.listPeers = .ok innerPeers → innerPeers.Nodup) :
    (setPeer parse heartbeatFactor node request).1 = some (.removePeer p) ↔
      AsksToRemove parse node request p ∧ node.Removable heartbeatFactor p := by
  rcases setPeer_outcome parse heartbeatFactor notForced distinct
    with ⟨q, asks, result⟩ | ⟨q, asks, result⟩ | ⟨neither, rejected⟩
  · exact iff_of_false (by simp [result]) fun h => asks.not_remove h.1
  · rw [result]
    rcases removeUnlessOtherFaulty_cases heartbeatFactor node q with
      ⟨removable, called⟩ | ⟨faulty, rejected⟩
    · rw [called, Option.some.injEq, NodeCall.removePeer.injEq]
      constructor
      · rintro rfl
        exact ⟨asks, removable⟩
      · exact fun h => asks.unique h.1
    · refine iff_of_false (rejected.noCall _) ?_
      rintro ⟨asks', removable⟩
      cases asks.unique asks'
      exact faulty removable
  · exact iff_of_false (rejected.noCall _) fun h => (neither p).2 h.1

theorem setPeer_rejected {request : RaftControlRequest} (notForced : request.isForce = false)
    (distinct : ∀ innerPeers, node.listPeers = .ok innerPeers → innerPeers.Nodup)
    (unchanged : ∀ p, (setPeer parse heartbeatFactor node request).1 ≠ some (.addPeer p) ∧
      (setPeer parse heartbeatFactor node request).1 ≠ some (.removePeer p)) :
    Rejected (setPeer parse heartbeatFactor node request) := by
  rcases setPeer_outcome parse heartbeatFactor notForced distinct
    with ⟨p, _, result⟩ | ⟨p, _, result⟩ | ⟨_, rejected⟩
  · exact absurd (congrArg Prod.fst result) (unchanged p).1
  · rcases removeUnlessOtherFaulty_cases heartbeatFactor node p with ⟨_, called⟩ | ⟨_, rejected⟩
    · exact absurd (congrArg Prod.fst (result.trans called)) (unchanged p).2
    · rw [← result] at rejected
      exact rejected
  · exact rejected

/-- A membership change is a single step from the current configuration: one peer more,
or one peer less while no other peer is faulty, and anything else is refused. -/
theorem membership_change_single_step (parse : Bytes → Option PeerId) (heartbeatFactor : Int)
    (node : RaftNode PeerId) (request : RaftControlRequest)
    (notForced : request.isForce = false)
    (distinct : ∀ innerPeers, node.listPeers = .ok innerPeers → innerPeers.Nodup) :
    let r := setPeer parse heartbeatFactor node request
    (∀ p, r.1 = some (.addPeer p) ↔ AsksToAdd parse node request p) ∧
    (∀ p, r.1 = some (.removePeer p) ↔
      AsksToRemove parse node request p ∧ node.Removable heartbeatFactor p) ∧
    ((∀ p, r.1 ≠ some (.addPeer p) ∧ r.1 ≠ some (.removePeer p)) → Rejected r) :=
  ⟨fun _ => setPeer_addPeer_iff notForced distinct,
    fun _ => setPeer_removePeer_iff notForced distinct, setPeer_rejected notForced distinct⟩

end Changes

/-! A group of two peers that is asked to take in a third one. -/

def twoPeers : RaftNode Bytes where
  listPeers := .ok [[1], [2]]
  resetPeers _ := true

def addThird : RaftControlRequest where
  opType := .setPeer
  oldPeers := [[2], [1]]
  newPeers := [[3], [1], [2]]

theorem third_peer_added : (setPeer some 10 twoPeers addThird).1 = some (.addPeer [3]) := by
  have distinct : ∀ innerPeers, twoPeers.listPeers = .ok innerPeers → innerPeers.Nodup := by
    intro innerPeers eq
    cases eq
    decide
  refine ((membership_change_single_step some 10 twoPeers addThird rfl distinct).1 [3]).mpr ?_
  refine ⟨[[1], [2]], [[2], [1]], [[3], [1], [2]], ⟨rfl, rfl, rfl⟩, ?_⟩
  exact (addsPeer_iff (by decide)).mpr ⟨by decide, by decide, by decide⟩

end EA
