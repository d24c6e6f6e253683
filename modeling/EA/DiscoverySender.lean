import EA.ClientUtility
import EA.Lib.Lockstep
import EA.Lib.Retry

namespace EA

open ByteString

/-- `butil::EndPoint`. -/
structure EndPoint where
  ip : Nat := 0
  port : Int := 0
deriving DecidableEq

/-- `butil::IP_ANY`. -/
def ipAny : Nat := 0

/-- What the sender takes from its libraries. `str2endpoint` gives what it leaves in the
endpoint and whether it could read all of the text, and splitting gives at least one part. -/
structure SenderLib where
  strSplit : Bytes → List Bytes
  strSplit_ne_nil : ∀ s, strSplit s ≠ []
  str2endpoint : Bytes → EndPoint × Bool
  findMethodByName : Bytes → Bool

/-- The fields of a response type that the sender reads. An `errcode` that is not set
reads as SUCCESS. -/
structure ResponseType (Response : Type) where
  blank : Response
  errcode : Response → Option ErrCode
  leader : Response → Bytes
  blank_errcode : errcode blank = none

structure DiscoverySender where
  servletNodes : List EndPoint := []
  masterLeaderAddress : EndPoint := {}
  retryTimes : Int := 5

/-- What becomes of one attempt. A call that fails can leave something in the response. -/
inductive AttemptOutcome (Response : Type) where
  | channelInitFails
  | callFails (left : Option Response)
  | reply (response : Response)

/-- What an attempt leaves in the response. -/
def AttemptOutcome.left {Response : Type} : AttemptOutcome Response → Option Response
  | .channelInitFails => none
  | .callFails left => left
  | .reply response => some response

/-- One attempt as the sender meets it: the random number for its choice of a node, and
what becomes of it. -/
structure Attempted (Response : Type) where
  fastRand : Nat
  outcome : AttemptOutcome Response

namespace DiscoverySender

variable {Response : Type}

def pushNodes (lib : SenderLib) :
    List Bytes → DiscoverySender → DiscoverySender × Except Status Unit
  | [], sender => (sender, .ok ())
  | peer :: peers, sender =>
    match lib.str2endpoint peer with
    | (_, false) => (sender, .error ⟨.invalidArgument, ascii "invalid address " ++ peer⟩)
    | (endPoint, true) =>
      pushNodes lib peers { sender with servletNodes := sender.servletNodes ++ [endPoint] }

def init (lib : SenderLib) (raftNodes : Bytes) (sender : DiscoverySender) :
    DiscoverySender × Except Status Unit :=
  pushNodes lib (lib.strSplit raftNodes)
    { sender with masterLeaderAddress := { sender.masterLeaderAddress with ip := ipAny } }

def setLeaderAddress (sender : DiscoverySender) (addr : EndPoint) : DiscoverySender :=
  { sender with masterLeaderAddress := addr }

def isSelectLeader (sender : DiscoverySender) : Bool := sender.masterLeaderAddress.ip == ipAny

/-- The address an attempt goes to. -/
def leaderAddress (sender : DiscoverySender) (fastRand : Nat) : EndPoint :=
  if sender.isSelectLeader then
    sender.servletNodes.getD (fastRand % sender.servletNodes.length) {}
  else sender.masterLeaderAddress

/-- What is kept of an attempt: where it went and what became of it. -/
structure Sent (Response : Type) where
  address : EndPoint
  outcome : AttemptOutcome Response

/-- The body of the loop of `send_request`, with the response it fills. -/
def sendOnce (lib : SenderLib) (type : ResponseType Response)
    (s : DiscoverySender × Response) (attempted : Attempted Response) :
    Retry.Attempt (DiscoverySender × Response) (Sent Response) :=
  let (sender, response) := s
  let leaderAddress := sender.leaderAddress attempted.fastRand
  let sent : Sent Response := ⟨leaderAddress, attempted.outcome⟩
  match attempted.outcome with
  | .channelInitFails => ⟨(sender.setLeaderAddress {}, response), sent, false⟩
  | .callFails left => ⟨(sender.setLeaderAddress {}, left.getD response), sent, false⟩
  | .reply response =>
    if type.errcode response = some .haveNotInit then
      ⟨(sender.setLeaderAddress {}, response), sent, false⟩
    else if type.errcode response = some .notLeader then
      let leaderAddr := (lib.str2endpoint (type.leader response)).1
      ⟨(sender.setLeaderAddress leaderAddr, response), sent, false⟩
    else if sender.isSelectLeader && leaderAddress.ip != ipAny then
      ⟨(sender.setLeaderAddress leaderAddress, response), sent, true⟩
    else ⟨(sender, response), sent, true⟩

structure SendResult (Response : Type) where
  status : Except Status Unit
  sender : DiscoverySender
  response : Response
  sent : List (Sent Response)

def sendRequest (lib : SenderLib) (type : ResponseType Response) (sender : DiscoverySender)
    (serviceName : Bytes) (retryTimes : Int) (attempts : Nat → Attempted Response)
    (response : Response) : SendResult Response :=
  if lib.findMethodByName serviceName then
    let result := Retry.loop (sendOnce lib type) retryTimes attempts 0 (sender, response)
    let status := if result.done then .ok () else .error ⟨.unavailable,
      ascii "can not connect server after " ++ decimal retryTimes ++ ascii " times try"⟩
    ⟨status, result.state.1, result.state.2, result.records⟩
  else
    ⟨.error ⟨.unavailable, ascii "service name not exist, service:" ++ serviceName⟩,
      sender, response, []⟩

def discoveryManager (lib : SenderLib) (type : ResponseType Response) (sender : DiscoverySender)
    (retryTimes : Int) (attempts : Nat → Attempted Response) (response : Response) :
    SendResult Response :=
  sender.sendRequest lib type (ascii "discovery_manager") retryTimes attempts response

def discoveryQuery (lib : SenderLib) (type : ResponseType Response) (sender : DiscoverySender)
    (retryTimes : Int) (attempts : Nat → Attempted Response) (response : Response) :
    SendResult Response :=
  sender.sendRequest lib type (ascii "discovery_query") retryTimes attempts response

theorem pushNodes_ok {lib : SenderLib} {peers : List Bytes} {sender sender' : DiscoverySender}
    (h : pushNodes lib peers sender = (sender', .ok ())) :
    sender'.servletNodes =
        sender.servletNodes ++ peers.map (fun peer => (lib.str2endpoint peer).1) ∧
      sender'.masterLeaderAddress = sender.masterLeaderAddress := by
  induction peers generalizing sender with
  | nil =>
    cases h
    simp
  | cons peer peers ih =>
    unfold pushNodes at h
    split at h
    next => simp at h
    next endPoint read =>
      obtain ⟨nodes, master⟩ := ih h
      exact ⟨by simp [nodes, read], master⟩

/-- After a successful `init` there is a node to ask, and no leader is known. -/
theorem init_ok {lib : SenderLib} {raftNodes : Bytes} {prior sender : DiscoverySender}
    (h : prior.init lib raftNodes = (sender, .ok ())) :
    sender.servletNodes ≠ [] ∧ sender.isSelectLeader = true := by
  obtain ⟨nodes, master⟩ := pushNodes_ok h
  constructor
  · rw [nodes]
    have parts := lib.strSplit_ne_nil raftNodes
    simp [parts]
  · simp [isSelectLeader, master]

variable {lib : SenderLib} {type : ResponseType Response}

/-- A reply other than HAVE_NOT_INIT and NOT_LEADER. -/
def Answered (type : ResponseType Response) (outcome : AttemptOutcome Response) : Prop :=
  ∃ response, outcome = .reply response ∧ type.errcode response ≠ some .haveNotInit ∧
    type.errcode response ≠ some .notLeader

/-- An attempt with such a reply. -/
def Sent.Answered (type : ResponseType Response) (sent : Sent Response) : Prop :=
  DiscoverySender.Answered type sent.outcome

/-- An attempt with a NOT_LEADER reply that names the address. -/
def Sent.Names (lib : SenderLib) (type : ResponseType Response) (sent : Sent Response)
    (address : EndPoint) : Prop :=
  ∃ response, sent.outcome = .reply response ∧ type.errcode response = some .notLeader ∧
    (lib.str2endpoint (type.leader response)).1 = address

/-- An address that an earlier attempt has given reason to ask. -/
def Learnt (lib : SenderLib) (type : ResponseType Response) (past : List (Sent Response))
    (address : EndPoint) : Prop :=
  ∃ sent ∈ past, sent.Names lib type address ∨ sent.address = address ∧ sent.Answered type

/-- The cached leader is an address learnt from an earlier attempt. -/
structure Informed (lib : SenderLib) (type : ResponseType Response) (nodes : List EndPoint)
    (past : List (Sent Response)) (sender : DiscoverySender) : Prop where
  nodes : sender.servletNodes = nodes
  leader : sender.isSelectLeader = false → Learnt lib type past sender.masterLeaderAddress

theorem Learnt.mono {past : List (Sent Response)} {address : EndPoint} (sent : Sent Response)
    (h : Learnt lib type past address) : Learnt lib type (past ++ [sent]) address := by
  obtain ⟨sent, mem, reason⟩ := h
  exact ⟨sent, List.mem_append_left _ mem, reason⟩

theorem learnt_last {past : List (Sent Response)} {sent : Sent Response} {address : EndPoint}
    (h : sent.Names lib type address ∨ sent.address = address ∧ sent.Answered type) :
    Learnt lib type (past ++ [sent]) address := ⟨sent, by simp, h⟩

theorem leaderAddress_known {nodes : List EndPoint} {past : List (Sent Response)}
    {sender : DiscoverySender} (some : nodes ≠ []) (h : Informed lib type nodes past sender)
    (fastRand : Nat) : sender.leaderAddress fastRand ∈ nodes ∨
      Learnt lib type past (sender.leaderAddress fastRand) := by
  unfold leaderAddress
  split
  next =>
    left
    have pos := List.length_pos_iff.mpr some
    have inside : fastRand % nodes.length < nodes.length := Nat.mod_lt _ pos
    rw [h.nodes, List.getD_eq_getElem _ _ inside]
    exact List.getElem_mem inside
  next known => exact Or.inr (h.leader (by simpa using known))

theorem informed_forgets {nodes : List EndPoint} {past : List (Sent Response)}
    {sender : DiscoverySender} (h : sender.servletNodes = nodes) :
    Informed lib type nodes past (sender.setLeaderAddress {}) :=
  ⟨h, fun known => by simp [isSelectLeader, setLeaderAddress, ipAny] at known⟩

/-- Everything that an attempt can do: it forgets the leader or takes the one that is
named, and the loop goes on, or it ends the loop with an answer. -/
theorem sendOnce_cases (lib : SenderLib) (type : ResponseType Response)
    (s : DiscoverySender × Response) (attempted : Attempted Response) :
    let sent : Sent Response := ⟨s.1.leaderAddress attempted.fastRand, attempted.outcome⟩
    let response := attempted.outcome.left.getD s.2
    (¬ sent.Answered type ∧ ∃ leader : EndPoint, (leader = {} ∨ sent.Names lib type leader) ∧
      sendOnce lib type s attempted = ⟨(s.1.setLeaderAddress leader, response), sent, false⟩) ∨
    sent.Answered type ∧ ∃ sender : DiscoverySender,
      (sender = s.1.setLeaderAddress sent.address ∨
        sender = s.1 ∧ (s.1.isSelectLeader = true → sent.address.ip = ipAny)) ∧
      sendOnce lib type s attempted = ⟨(sender, response), sent, true⟩ := by
  intro sent response
  have noReply : (∀ r, attempted.outcome ≠ .reply r) → ¬ sent.Answered type := by
    rintro none ⟨r, outcome, _⟩
    exact none r outcome
  have refused : ∀ r, attempted.outcome = .reply r →
      type.errcode r = some .haveNotInit ∨ type.errcode r = some .notLeader →
      ¬ sent.Answered type := by
    rintro r outcome refusal ⟨r', outcome', inited, leads⟩
    cases outcome.symm.trans outcome'
    exact refusal.elim inited leads
  unfold sendOnce
  dsimp only
  split
  next outcome =>
    exact Or.inl ⟨noReply (by simp [outcome]), {}, Or.inl rfl, by simp [response, sent, outcome,
      AttemptOutcome.left]⟩
  next left outcome =>
    exact Or.inl ⟨noReply (by simp [outcome]), {}, Or.inl rfl, by simp [response, sent, outcome,
      AttemptOutcome.left]⟩
  next r outcome =>
    have taken : response = r := by simp [response, outcome, AttemptOutcome.left]
    split
    next haveNotInit =>
      exact Or.inl ⟨refused r outcome (Or.inl haveNotInit), {}, Or.inl rfl, by rw [taken]⟩
    next inited =>
      split
      next notLeader =>
        have names : sent.Names lib type (lib.str2endpoint (type.leader r)).1 :=
          ⟨r, outcome, notLeader, rfl⟩
        exact Or.inl ⟨refused r outcome (Or.inr notLeader), _, Or.inr names, by rw [taken]⟩
      next leads =>
        have answered : sent.Answered type := ⟨r, outcome, inited, leads⟩
        split
        next => exact Or.inr ⟨answered, _, Or.inl rfl, by rw [taken]⟩
        next kept =>
          refine Or.inr ⟨answered, _, Or.inr ⟨rfl, fun selects => ?_⟩, by rw [taken]⟩
          simpa [selects] using kept

theorem sendOnce_record (s : DiscoverySender × Response) (attempted : Attempted Response) :
    (sendOnce lib type s attempted).record =
      ⟨s.1.leaderAddress attempted.fastRand, attempted.outcome⟩ := by
  rcases sendOnce_cases lib type s attempted with ⟨_, _, _, eq⟩ | ⟨_, _, _, eq⟩
  · rw [eq]
  · rw [eq]

theorem sendOnce_response (s : DiscoverySender × Response) (attempted : Attempted Response) :
    (sendOnce lib type s attempted).state.2 = attempted.outcome.left.getD s.2 := by
  rcases sendOnce_cases lib type s attempted with ⟨_, _, _, eq⟩ | ⟨_, _, _, eq⟩
  · rw [eq]
  · rw [eq]

/-- Exactly an answer ends the loop. -/
theorem sendOnce_done_iff (s : DiscoverySender × Response) (attempted : Attempted Response) :
    (sendOnce lib type s attempted).done = true ↔
      (sendOnce lib type s attempted).record.Answered type := by
  rcases sendOnce_cases lib type s attempted with
    ⟨unanswered, _, _, eq⟩ | ⟨answered, _, _, eq⟩
  · rw [eq]
    exact iff_of_false (by simp) unanswered
  · rw [eq]
    exact iff_of_true rfl answered

/-- The answer is left in the response, and the node that gave it is the leader from then on. -/
theorem sendOnce_answered {s : DiscoverySender × Response} {attempted : Attempted Response}
    (h : (sendOnce lib type s attempted).done = true) :
    attempted.outcome = .reply (sendOnce lib type s attempted).state.2 ∧
      ((s.1.leaderAddress attempted.fastRand).ip ≠ ipAny →
        (sendOnce lib type s attempted).state.1.masterLeaderAddress =
          s.1.leaderAddress attempted.fastRand) := by
  rcases sendOnce_cases lib type s attempted with
    ⟨_, _, _, eq⟩ | ⟨⟨r, outcome, _⟩, sender, leader, eq⟩
  · rw [eq] at h
    simp at h
  · have reply : attempted.outcome = .reply r := outcome
    rw [eq, reply]
    refine ⟨rfl, fun addressed => ?_⟩
    rcases leader with rfl | ⟨rfl, known⟩
    · rfl
    · have selected : ¬ s.1.isSelectLeader = true := fun selects => addressed (known selects)
      rw [leaderAddress, if_neg selected]

theorem sendOnce_informed {nodes : List EndPoint} {past : List (Sent Response)}
    {s : DiscoverySender × Response} (h : Informed lib type nodes past s.1)
    (attempted : Attempted Response) :
    Informed lib type nodes (past ++ [(sendOnce lib type s attempted).record])
      (sendOnce lib type s attempted).state.1 := by
  rcases sendOnce_cases lib type s attempted with
    ⟨_, leader, rfl | names, eq⟩ | ⟨answered, sender, rfl | ⟨rfl, _⟩, eq⟩
  · rw [eq]
    exact informed_forgets h.nodes
  · rw [eq]
    exact ⟨h.nodes, fun _ => learnt_last (Or.inl names)⟩
  · rw [eq]
    exact ⟨h.nodes, fun _ => learnt_last (Or.inr ⟨rfl, answered⟩)⟩
  · rw [eq]
    exact ⟨h.nodes, fun known => (h.leader known).mono _⟩

/-- A call of `send_request`, with what its attempts meet. -/
structure Call (Response : Type) where
  serviceName : Bytes
  retryTimes : Int
  attempts : Nat → Attempted Response
  response : Response

def call (lib : SenderLib) (type : ResponseType Response) (sender : DiscoverySender)
    (c : Call Response) : SendResult Response :=
  sender.sendRequest lib type c.serviceName c.retryTimes c.attempts c.response

/-- The calls of a thread one after the other, with the attempts that each makes. -/
def calls (lib : SenderLib) (type : ResponseType Response) (sender : DiscoverySender)
    (cs : List (Call Response)) : DiscoverySender × List (List (Sent Response)) :=
  Run.all (fun sender c => ((sender.call lib type c).sender, (sender.call lib type c).sent))
    sender cs

section Calls

variable {nodes : List EndPoint} {past : List (Sent Response)} {sender : DiscoverySender}

/-- The rounds of the loop that a call runs. -/
def rounds (lib : SenderLib) (type : ResponseType Response) (sender : DiscoverySender)
    (c : Call Response) : Retry.Result (DiscoverySender × Response) (Sent Response) :=
  Retry.loop (sendOnce lib type) c.retryTimes c.attempts 0 (sender, c.response)

/-- A call runs the loop, unless the service has no such method. -/
theorem call_cases (lib : SenderLib) (type : ResponseType Response) (sender : DiscoverySender)
    (c : Call Response) :
    (lib.findMethodByName c.serviceName = true ∧
      (sender.call lib type c).sent = (sender.rounds lib type c).records ∧
      (sender.call lib type c).sender = (sender.rounds lib type c).state.1 ∧
      (sender.call lib type c).response = (sender.rounds lib type c).state.2 ∧
      ((sender.call lib type c).status = .ok () ↔ (sender.rounds lib type c).done = true)) ∨
    lib.findMethodByName c.serviceName = false ∧ (sender.call lib type c).sent = [] ∧
      (sender.call lib type c).sender = sender ∧
      (sender.call lib type c).response = c.response ∧
      (sender.call lib type c).status ≠ .ok () := by
  unfold call sendRequest
  split
  next known =>
    refine Or.inl ⟨known, rfl, rfl, rfl, ?_⟩
    dsimp only [rounds]
    split <;> simp_all
  next unknown => exact Or.inr ⟨by simpa using unknown, rfl, rfl, rfl, by simp⟩

/-- Every attempt of a call goes to a node or to an address learnt before it. -/
theorem call_informed (some : nodes ≠ []) (h : Informed lib type nodes past sender)
    (c : Call Response) :
    Informed lib type nodes (past ++ (sender.call lib type c).sent)
        (sender.call lib type c).sender ∧
      ∀ pre sent post, (sender.call lib type c).sent = pre ++ sent :: post →
        sent.address ∈ nodes ∨ Learnt lib type (past ++ pre) sent.address := by
  rcases call_cases lib type sender c with ⟨_, sent, kept, _, _⟩ | ⟨_, sent, kept, _, _⟩
  · rw [sent, kept]
    apply Retry.loop_invariant
      (I := fun past (s : DiscoverySender × Response) => Informed lib type nodes past s.1)
      (G := fun past sent => sent.address ∈ nodes ∨ Learnt lib type past sent.address)
    · intro past s attempted h
      refine ⟨?_, sendOnce_informed h attempted⟩
      rw [sendOnce_record]
      exact leaderAddress_known some h attempted.fastRand
    · exact h
  · rw [sent, kept]
    refine ⟨by simpa using h, fun pre sent post split => ?_⟩
    simp at split

theorem calls_informed (some : nodes ≠ []) (h : Informed lib type nodes past sender)
    (cs : List (Call Response)) :
    Informed lib type nodes (past ++ (sender.calls lib type cs).2.flatten)
      (sender.calls lib type cs).1 := by
  induction cs generalizing past sender with
  | nil => simpa [calls] using h
  | cons c cs ih =>
    have later := ih (call_informed some h c).1
    rw [List.append_assoc] at later
    exact later

theorem call_attempts_le (c : Call Response) :
    (sender.call lib type c).sent.length ≤ max 1 c.retryTimes.toNat := by
  rcases call_cases lib type sender c with ⟨_, sent, _, _, _⟩ | ⟨_, sent, _, _, _⟩
  · have bound := Retry.length_records_le (sendOnce lib type) c.retryTimes c.attempts 0
      (sender, c.response)
    rw [sent, rounds]
    simpa using bound
  · rw [sent, List.length_nil]
    omega

theorem call_outcome (c : Call Response) {i : Nat} {s : Sent Response}
    (h : (sender.call lib type c).sent[i]? = some s) : s.outcome = (c.attempts i).outcome := by
  rcases call_cases lib type sender c with ⟨_, sent, _, _, _⟩ | ⟨_, sent, _, _, _⟩
  · rw [sent] at h
    obtain ⟨before, record⟩ := Retry.record_of_event 0 _ h
    rw [record, sendOnce_record, Nat.zero_add]
  · rw [sent] at h
    simp at h

/-- A call that fails has made all of its attempts. -/
theorem call_failed_length (c : Call Response) (known : lib.findMethodByName c.serviceName = true)
    (failed : (sender.call lib type c).status ≠ .ok ()) :
    (sender.call lib type c).sent.length = max 1 c.retryTimes.toNat := by
  rcases call_cases lib type sender c with ⟨_, sent, _, _, status⟩ | ⟨unknown, _, _, _, _⟩
  · have retried : (sender.rounds lib type c).done = false := by
      simpa using fun ends => failed (status.mpr ends)
    have length := Retry.length_records_of_not_done (sendOnce lib type) c.retryTimes c.attempts 0
      (sender, c.response) retried
    rw [sent, rounds, length, Nat.cast_zero, sub_zero]
  · rw [known] at unknown
    simp at unknown

/-- The response is what the last attempt that left something in it has left. -/
theorem call_response (c : Call Response) :
    (sender.call lib type c).response = (sender.call lib type c).sent.foldl
      (fun response s => s.outcome.left.getD response) c.response := by
  rcases call_cases lib type sender c with ⟨_, sent, _, left, _⟩ | ⟨_, sent, _, left, _⟩
  · rw [sent, left, rounds]
    apply Retry.loop_fold Prod.snd
    intro s attempted
    rw [sendOnce_response, sendOnce_record]
  · rw [sent, left, List.foldl_nil]

/-- OK comes from an answer, which is then the last attempt. -/
theorem call_ok_iff (c : Call Response) : (sender.call lib type c).status = .ok () ↔
    ∃ s ∈ (sender.call lib type c).sent, s.Answered type := by
  rcases call_cases lib type sender c with ⟨_, sent, _, _, status⟩ | ⟨_, sent, _, _, status⟩
  · obtain ⟨front, before, attempted, records, _, done, earlier⟩ :=
      Retry.loop_last (sendOnce lib type) c.retryTimes c.attempts 0 (sender, c.response)
    rw [status, sent, rounds, records, done, sendOnce_done_iff]
    constructor
    · intro answered
      exact ⟨_, by simp, answered⟩
    · rintro ⟨s, mem, answered⟩
      rcases List.mem_append.mp mem with mem | last
      · obtain ⟨before', attempted', rfl, retries⟩ := earlier s mem
        rw [(sendOnce_done_iff before' attempted').mpr answered] at retries
        simp at retries
      · rw [← List.mem_singleton.mp last]
        exact answered
  · rw [sent]
    simp [status]

/-- Without an answer a call fails. -/
theorem call_failed (lib : SenderLib) (type : ResponseType Response) (sender : DiscoverySender)
    (c : Call Response)
    (none : ∀ i response, (c.attempts i).outcome = .reply response →
      type.errcode response = some .haveNotInit ∨ type.errcode response = some .notLeader) :
    (sender.call lib type c).status ≠ .ok () := by
  intro ok
  obtain ⟨s, mem, response, outcome, inited, leads⟩ := (call_ok_iff c).mp ok
  obtain ⟨i, sent⟩ := List.mem_iff_getElem?.mp mem
  rw [call_outcome c sent] at outcome
  rcases none i response outcome with haveNotInit | notLeader
  · exact inited haveNotInit
  · exact leads notLeader

/-- The answer is the first one, it is left in the response, and its node is the leader. -/
theorem call_answer (c : Call Response) (ok : (sender.call lib type c).status = .ok ()) :
    ∃ front s, (sender.call lib type c).sent = front ++ [s] ∧
      (∀ earlier ∈ front, ¬ earlier.Answered type) ∧ s.Answered type ∧
      s.outcome = .reply (sender.call lib type c).response ∧
      (s.address.ip ≠ ipAny → (sender.call lib type c).sender.masterLeaderAddress = s.address) := by
  rcases call_cases lib type sender c with ⟨_, sent, kept, left, status⟩ | ⟨_, _, _, _, status⟩
  · obtain ⟨front, before, attempted, records, state, done, earlier⟩ :=
      Retry.loop_last (sendOnce lib type) c.retryTimes c.attempts 0 (sender, c.response)
    have ends : (sendOnce lib type before attempted).done = true := by
      rw [← done]
      exact status.mp ok
    obtain ⟨reply, leader⟩ := sendOnce_answered ends
    refine ⟨front, _, sent.trans records, fun s mem answered => ?_,
      (sendOnce_done_iff before attempted).mp ends, ?_⟩
    · obtain ⟨before', attempted', rfl, retries⟩ := earlier s mem
      rw [(sendOnce_done_iff before' attempted').mpr answered] at retries
      simp at retries
    · rw [left, kept, rounds, state, sendOnce_record]
      exact ⟨reply, leader⟩
  · exact absurd ok status

/-- What a call comes to depends on its attempts alone: with an answer within the tries it is
OK, and without one every try is made. -/
theorem call_ok_iff_answered (c : Call Response)
    (known : lib.findMethodByName c.serviceName = true) :
    (sender.call lib type c).status = .ok () ↔
      ∃ i < max 1 c.retryTimes.toNat, Answered type (c.attempts i).outcome := by
  constructor
  · intro ok
    obtain ⟨s, mem, answered⟩ := (call_ok_iff c).mp ok
    obtain ⟨i, sent⟩ := List.mem_iff_getElem?.mp mem
    have inside : i < (sender.call lib type c).sent.length :=
      (List.getElem?_eq_some_iff.mp sent).1
    have outcome := call_outcome c sent
    have bound : (sender.call lib type c).sent.length ≤ max 1 c.retryTimes.toNat :=
      call_attempts_le c
    refine ⟨i, by omega, ?_⟩
    rw [← outcome]
    exact answered
  · rintro ⟨i, inside, answered⟩
    by_contra failed
    have length := call_failed_length c known failed
    have made : i < (sender.call lib type c).sent.length := by omega
    have sent : (sender.call lib type c).sent[i]? = some (sender.call lib type c).sent[i] :=
      List.getElem?_eq_getElem made
    apply failed
    refine (call_ok_iff c).mpr ⟨_, List.mem_of_getElem? sent, ?_⟩
    rw [Sent.Answered, call_outcome c sent]
    exact answered

end Calls

/-- One call of a thread that uses a sender after its `init`. -/
theorem leader_following_retry (lib : SenderLib) (type : ResponseType Response)
    (raftNodes : Bytes) (prior sender : DiscoverySender)
    (ready : prior.init lib raftNodes = (sender, .ok ())) (earlier : List (Call Response))
    (c : Call Response) :
    let now := (sender.calls lib type earlier).1
    let past := (sender.calls lib type earlier).2.flatten
    let result := now.call lib type c
    result.sent.length ≤ max 1 c.retryTimes.toNat ∧
    (∀ i s, result.sent[i]? = some s → s.outcome = (c.attempts i).outcome) ∧
    (∀ pre s post, result.sent = pre ++ s :: post →
      s.address ∈ sender.servletNodes ∨ Learnt lib type (past ++ pre) s.address) ∧
    (result.status = .ok () ↔ ∃ s ∈ result.sent, s.Answered type) ∧
    (result.status = .ok () → ∃ front s, result.sent = front ++ [s] ∧
      (∀ earlier ∈ front, ¬ earlier.Answered type) ∧ s.Answered type ∧
      s.outcome = .reply result.response ∧
      (s.address.ip ≠ ipAny → result.sender.masterLeaderAddress = s.address)) ∧
    (lib.findMethodByName c.serviceName = true →
      (result.status = .ok () ↔
        ∃ i < max 1 c.retryTimes.toNat, Answered type (c.attempts i).outcome) ∧
      (result.status ≠ .ok () → result.sent.length = max 1 c.retryTimes.toNat)) := by
  intro now past result
  obtain ⟨some, unknown⟩ := init_ok ready
  have start : Informed lib type sender.servletNodes [] sender :=
    ⟨rfl, fun known => by simp [unknown] at known⟩
  have informed : Informed lib type sender.servletNodes past now := by
    simpa using calls_informed some start earlier
  refine ⟨call_attempts_le c, fun i s h => call_outcome c h, (call_informed some informed c).2,
    call_ok_iff c, call_answer c, fun known => ?_⟩
  exact ⟨call_ok_iff_answered c known, call_failed_length c known⟩

/-! A sender with one node, which is asked twice. -/

def oneNodeLib : SenderLib where
  strSplit := List.splitOnP fun c => c ∈ ascii ",;\t\n "
  strSplit_ne_nil := List.splitOnP_ne_nil _
  str2endpoint s := if s = ascii "10.0.0.1:8010" then (⟨0x0A000001, 8010⟩, true) else ({}, false)
  findMethodByName name := name == ascii "discovery_query"

def bareType : ResponseType (Option ErrCode) where
  blank := none
  errcode := id
  leader _ := []
  blank_errcode := rfl

def secondTry : Call (Option ErrCode) where
  serviceName := ascii "discovery_query"
  retryTimes := 2
  attempts
    | 0 => ⟨7, .callFails none⟩
    | _ => ⟨7, .reply (some .success)⟩
  response := none

/-- The first try reaches nobody, the second one is answered, and its node is the leader. -/
theorem second_try_sent :
    let node : EndPoint := ⟨0x0A000001, 8010⟩
    let now := (calls oneNodeLib bareType ⟨[node], {}, 5⟩ []).1
    let result := now.call oneNodeLib bareType secondTry
    result.status = .ok () ∧ result.response = some .success ∧
    result.sent = [⟨node, .callFails none⟩, ⟨node, .reply (some .success)⟩] ∧
    result.sender.masterLeaderAddress = node := by
  intro node now result
  have ready : ({} : DiscoverySender).init oneNodeLib (ascii "10.0.0.1:8010") =
      (⟨[node], {}, 5⟩, .ok ()) := by rfl
  obtain ⟨_, outcomes, _, _, answer, known⟩ := leader_following_retry oneNodeLib bareType
    (ascii "10.0.0.1:8010") {} ⟨[node], {}, 5⟩ ready [] secondTry
  have ok : result.status = .ok () := by
    refine (known (by decide)).1.mpr ⟨1, by decide, some .success, rfl, ?_, ?_⟩
    · simp [bareType]
    · simp [bareType]
  have sent : result.sent = [⟨node, .callFails none⟩, ⟨node, .reply (some .success)⟩] := by
    let start := sendOnce oneNodeLib bareType (now, none) (secondTry.attempts 0)
    have first : start.done = false := rfl
    have second : (sendOnce oneNodeLib bareType start.state (secondTry.attempts 1)).done = true := by
      decide
    have more : ((0 : Nat) : Int) + 1 < secondTry.retryTimes := by decide
    have records : (now.rounds oneNodeLib bareType secondTry).records =
        [⟨node, .callFails none⟩, ⟨node, .reply (some .success)⟩] := by
      rw [rounds, show secondTry.response = none from rfl, Retry.loop_of_more first more,
        Retry.loop_of_done second]
      have asked : now.leaderAddress (secondTry.attempts 0).fastRand = node := by decide
      have askedAgain : start.state.1.leaderAddress (secondTry.attempts 1).fastRand = node := by
        decide
      simp only [sendOnce_record, asked, askedAgain]
      rfl
    exact records
  obtain ⟨front, s, split, _, _, reply, leader⟩ := answer ok
  have last : s = ⟨node, .reply (some .success)⟩ := by
    have ends := congrArg List.getLast? (sent.symm.trans split)
    rw [List.getLast?_concat] at ends
    exact (Option.some.inj ends).symm
  subst last
  exact ⟨ok, (AttemptOutcome.reply.inj reply).symm, sent, leader (by decide)⟩

end DiscoverySender

end EA
