import EA.ClientOperations

namespace EA

open ByteString

theorem submit_ok_iff {send : ManagerSender} {rejected : Option StatusCode}
    {built : Except Status ManagerRequest} :
    (submit send rejected built).status = .ok () ↔
      ∃ request response, built = .ok request ∧ send request = .ok response ∧
        (rejected = none ∨ response.errcode = .success) := by
  constructor
  · intro ok
    cases built with
    | error err => simp [submit] at ok
    | ok request =>
      simp only [submit] at ok
      cases sent : send request with
      | error err => simp [sent] at ok
      | ok response =>
        refine ⟨request, response, rfl, sent, ?_⟩
        cases rejected with
        | none => exact .inl rfl
        | some code =>
          by_cases success : response.errcode = .success
          · exact .inr success
          · simp [sent, success] at ok
  · intro ⟨request, response, hbuilt, sent, read⟩
    subst hbuilt
    simp only [submit, sent]
    cases rejected with
    | none => rfl
    | some code =>
      have success : response.errcode = .success := by simpa using read
      simp [success]

namespace ClientCall

variable {lib : ClientLib} {send : ManagerSender} {call : ClientCall}

/-- The methods on configs. -/
def onConfigs : ClientCall → Bool
  | .createConfig .. | .createConfigInfo _ | .createConfigByFile .. | .createConfigByJson _ => true
  | .removeConfig .. | .removeConfigModule .. | .removeConfigAllVersion _ => true
  | _ => false

/-- The local checks end the call before anything is sent. -/
def Refused (lib : ClientLib) (call : ClientCall) : Prop := ∀ op, call.meaning lib ≠ .ok op

theorem rejected_eq_none : call.rejected = none ↔ call.onConfigs = false := by
  cases call <;> simp [rejected, onConfigs]

theorem run_ok_iff :
    (call.run lib send).status = .ok () ↔
      ∃ op response, call.meaning lib = .ok op ∧ send (call.written op.request) = .ok response ∧
        (call.rejected = none ∨ response.errcode = .success) := by
  rw [run_eq, submit_ok_iff]
  constructor
  · intro ⟨request, response, built, sent, read⟩
    cases means : call.meaning lib with
    | error err => simp [means, Except.map] at built
    | ok op =>
      have written : call.written op.request = request := by simpa [means, Except.map] using built
      exact ⟨op, response, rfl, written ▸ sent, read⟩
  · intro ⟨op, response, means, sent, read⟩
    exact ⟨call.written op.request, response, by rw [means]; rfl, sent, read⟩

/-- With `answer` from the sender, OK is returned only for a response that says SUCCESS. -/
def Honest (lib : ClientLib) (call : ClientCall) (answer : Except Status ManagerResponse) : Prop :=
  (call.run lib fun _ => answer).status = .ok () →
    ∃ response, answer = .ok response ∧ response.errcode = .success

theorem honest_iff (lib : ClientLib) (call : ClientCall) (answer : Except Status ManagerResponse) :
    call.Honest lib answer ↔
      call.onConfigs = true ∨ call.Refused lib ∨
        ∀ response, answer = .ok response → response.errcode = .success := by
  constructor
  · intro honest
    by_cases configs : call.onConfigs = true
    · exact .inl configs
    · right
      by_cases refused : call.Refused lib
      · exact .inl refused
      · right
        intro response hanswer
        have ⟨op, means⟩ : ∃ op, call.meaning lib = .ok op := by simpa [Refused] using refused
        have unread : call.rejected = none := rejected_eq_none.mpr (by simpa using configs)
        obtain ⟨same, hsame, success⟩ :=
          honest (run_ok_iff.mpr ⟨op, response, means, hanswer, .inl unread⟩)
        cases hanswer.symm.trans hsame
        exact success
  · intro fine ok
    obtain ⟨op, response, means, hanswer, read⟩ := run_ok_iff.mp ok
    refine ⟨response, hanswer, ?_⟩
    rcases fine with configs | refused | success
    · have reads : call.rejected ≠ none := by simp [rejected_eq_none, configs]
      exact read.resolve_left reads
    · exact absurd means (refused op)
    · exact success response hanswer

end ClientCall

/-- A client without files and with no JSON that parses. -/
def loadsNothing : ClientLib where
  strings := ⟨fun s => [s], fun _ => none, id⟩
  types := ⟨0, 1, 2, 3, 4, 5, 6⟩
  readFile _ := .error ⟨.notFound, []⟩
  jsonToNamespace err := .error err
  jsonToZone err := .error err
  jsonToServlet err := .error err
  jsonToConfig err := .error err

theorem rejected_zone_looks_created :
    ¬ ∀ lib call answer, ClientCall.Honest lib call answer := by
  intro honest
  have answered : (ClientCall.run loadsNothing
      (fun _ => .ok (refusal "namespace not exist")) (.createZone [97] [98] 0)).status =
      .ok () := rfl
  obtain ⟨response, same, success⟩ := honest _ _ _ answered
  cases same
  exact absurd success (by decide)

end EA
