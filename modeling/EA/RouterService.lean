import EA.DiscoverySender

namespace EA

open ByteString DiscoverySender

variable {Response : Type}

structure RouterServiceImpl where
  managerSender : DiscoverySender := {}
  querySender : DiscoverySender := {}

/-- What the client of an RPC gets: whether its controller has failed, and the response. -/
structure RpcAnswer (Response : Type) where
  failed : Bool
  response : Response

/-- The end of an RPC whose handler leaves its controller alone. It fails only where the
message lacks a field that it requires; whether `errcode` is one is up to its schema. -/
def completed (type : ResponseType Response) (errcodeRequired : Bool) (response : Response) :
    RpcAnswer Response :=
  ⟨errcodeRequired && (type.errcode response).isNone, response⟩

namespace RouterServiceImpl

/-- `discovery_manager` of the router, which logs an error and does nothing more about it. -/
def discoveryManager (lib : SenderLib) (type : ResponseType Response) (errcodeRequired : Bool)
    (router : RouterServiceImpl) (attempts : Nat → Attempted Response) :
    RouterServiceImpl × RpcAnswer Response :=
  let ret := router.managerSender.discoveryManager lib type 2 attempts type.blank
  ({ router with managerSender := ret.sender }, completed type errcodeRequired ret.response)

/-- `discovery_query` of the router, likewise. -/
def discoveryQuery (lib : SenderLib) (type : ResponseType Response) (errcodeRequired : Bool)
    (router : RouterServiceImpl) (attempts : Nat → Attempted Response) :
    RouterServiceImpl × RpcAnswer Response :=
  let ret := router.querySender.discoveryQuery lib type 2 attempts type.blank
  ({ router with querySender := ret.sender }, completed type errcodeRequired ret.response)

end RouterServiceImpl

/-- The answer tells its client that the request has failed. -/
def RpcAnswer.ReportsFailure (type : ResponseType Response) (answer : RpcAnswer Response) : Prop :=
  answer.failed = true ∨ ∃ code, type.errcode answer.response = some code ∧ code ≠ .success

/-- What the two attempts for a service leave in the response, the later one first. -/
def leftByTwo (lib : SenderLib) (serviceName : Bytes) (attempts : Nat → Attempted Response) :
    Option Response :=
  if lib.findMethodByName serviceName then
    (attempts 1).outcome.left <|> (attempts 0).outcome.left
  else none

/-- The last attempt that leaves something leaves an error code, or the message without
one does not pass. -/
def ErrorLeft (lib : SenderLib) (type : ResponseType Response) (errcodeRequired : Bool)
    (serviceName : Bytes) (attempts : Nat → Attempted Response) : Prop :=
  match (leftByTwo lib serviceName attempts).bind type.errcode with
  | some code => code ≠ .success
  | none => errcodeRequired = true

theorem twoAttempts_response {lib : SenderLib} {type : ResponseType Response}
    {sender : DiscoverySender} {c : Call Response} (two : c.retryTimes = 2)
    (failed : (sender.call lib type c).status ≠ .ok ()) :
    (sender.call lib type c).response =
      (leftByTwo lib c.serviceName c.attempts).getD c.response := by
  rw [call_response, leftByTwo]
  split
  next known =>
    have length := call_failed_length c known failed
    rw [two] at length
    obtain ⟨first, second, sent⟩ := List.length_eq_two.mp length
    have outcome : ∀ i s, (sender.call lib type c).sent[i]? = some s →
        s.outcome = (c.attempts i).outcome := fun i s h => call_outcome c h
    rw [sent] at outcome ⊢
    have first_outcome := outcome 0 first rfl
    have second_outcome := outcome 1 second rfl
    simp only [List.foldl_cons, List.foldl_nil, first_outcome, second_outcome]
    cases (c.attempts 1).outcome.left <;> rfl
  next unknown =>
    rcases call_cases lib type sender c with ⟨known, _⟩ | ⟨_, sent, _⟩
    · exact absurd known unknown
    · rw [sent]
      rfl

theorem completed_reports_iff {lib : SenderLib} {type : ResponseType Response}
    {errcodeRequired : Bool} {sender : DiscoverySender} {c : Call Response}
    (two : c.retryTimes = 2) (blank : c.response = type.blank)
    (failed : (sender.call lib type c).status ≠ .ok ()) :
    (completed type errcodeRequired (sender.call lib type c).response).ReportsFailure type ↔
      ErrorLeft lib type errcodeRequired c.serviceName c.attempts := by
  have errcode : type.errcode (sender.call lib type c).response =
      (leftByTwo lib c.serviceName c.attempts).bind type.errcode := by
    rw [twoAttempts_response two failed, blank]
    cases leftByTwo lib c.serviceName c.attempts with
    | none => exact type.blank_errcode
    | some response => rfl
  unfold RpcAnswer.ReportsFailure ErrorLeft completed
  dsimp only
  rw [errcode]
  cases (leftByTwo lib c.serviceName c.attempts).bind type.errcode with
  | none => simp
  | some code => simp

/-- Where no server has processed a request, its client learns so exactly when the last
thing left in the response is an error code, or a response without one is refused. -/
theorem router_reports_failure_iff (lib : SenderLib) (type : ResponseType Response)
    (errcodeRequired : Bool) (router : RouterServiceImpl) (attempts : Nat → Attempted Response) :
    ((router.managerSender.discoveryManager lib type 2 attempts type.blank).status ≠ .ok () →
      ((router.discoveryManager lib type errcodeRequired attempts).2.ReportsFailure type ↔
        ErrorLeft lib type errcodeRequired (ascii "discovery_manager") attempts)) ∧
    ((router.querySender.discoveryQuery lib type 2 attempts type.blank).status ≠ .ok () →
      ((router.discoveryQuery lib type errcodeRequired attempts).2.ReportsFailure type ↔
        ErrorLeft lib type errcodeRequired (ascii "discovery_query") attempts)) := by
  constructor
  · exact completed_reports_iff (c := ⟨ascii "discovery_manager", 2, attempts, type.blank⟩) rfl rfl
  · exact completed_reports_iff (c := ⟨ascii "discovery_query", 2, attempts, type.blank⟩) rfl rfl

/-- For one schema: an error of the sender is an error for the client. -/
def RouterReports (errcodeRequired : Bool) : Prop :=
  ∀ (lib : SenderLib) (type : ResponseType (Option ErrCode)) (router : RouterServiceImpl)
    (attempts : Nat → Attempted (Option ErrCode)),
    (router.querySender.discoveryQuery lib type 2 attempts type.blank).status ≠ .ok () →
    (router.discoveryQuery lib type errcodeRequired attempts).2.ReportsFailure type

def oneNodeRouter : RouterServiceImpl where
  querySender := { servletNodes := [⟨0x0A000001, 8010⟩] }

/-- Both attempts meet a server that knows no leader. -/
def noLeader : Nat → Attempted (Option ErrCode) := fun _ => ⟨0, .reply (some .notLeader)⟩

theorem no_leader_reported :
    (oneNodeRouter.discoveryQuery oneNodeLib bareType false noLeader).2.ReportsFailure
      bareType := by
  have failed := call_failed oneNodeLib bareType oneNodeRouter.querySender
    ⟨ascii "discovery_query", 2, noLeader, bareType.blank⟩
    fun _ _ outcome => Or.inr (AttemptOutcome.reply.inj outcome).symm
  refine ((router_reports_failure_iff oneNodeLib bareType false oneNodeRouter noLeader).2
    failed).mpr ?_
  have left : leftByTwo oneNodeLib (ascii "discovery_query") noLeader =
      some (some .notLeader) := by decide
  rw [ErrorLeft, left]
  simp [bareType]

/-- The node cannot be reached, or its reply breaks off after an `errcode` of SUCCESS. -/
theorem router_hides_failure : ¬ RouterReports false ∧ ¬ RouterReports true := by
  have hidden : ∀ (errcodeRequired : Bool) (left : Option (Option ErrCode)),
      ¬ ErrorLeft oneNodeLib bareType errcodeRequired (ascii "discovery_query")
        (fun _ => ⟨0, .callFails left⟩) → ¬ RouterReports errcodeRequired := by
    intro errcodeRequired left noError always
    have failed := call_failed oneNodeLib bareType oneNodeRouter.querySender
      ⟨ascii "discovery_query", 2, fun _ => ⟨0, .callFails left⟩, bareType.blank⟩ (by simp)
    have reports := always oneNodeLib bareType oneNodeRouter _ failed
    exact noError ((completed_reports_iff (by rfl) rfl failed).mp reports)
  have served : oneNodeLib.findMethodByName (ascii "discovery_query") = true := by decide
  constructor
  · apply hidden false none
    simp [ErrorLeft, leftByTwo, served, AttemptOutcome.left]
  · apply hidden true (some (some .success))
    simp [ErrorLeft, leftByTwo, served, AttemptOutcome.left, bareType]

end EA
