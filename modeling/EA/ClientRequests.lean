import EA.ClientStatus

namespace EA

theorem submit_sent {send : ManagerSender} {rejected : Option StatusCode}
    {request : ManagerRequest} :
    (submit send rejected (.ok request)).sent = some request := by
  simp only [submit]
  cases send request with
  | error err => rfl
  | ok response =>
    cases rejected with
    | none => rfl
    | some code =>
      dsimp only
      split <;> rfl

theorem map_eq_ok {α β : Type} {built : Except Status α} {f : α → β} {b : β}
    (h : built.map f = .ok b) : ∃ a, f a = b := by
  cases built with
  | error err => cases h
  | ok a => exact ⟨a, Except.ok.inj h⟩

theorem Operation.request_opType (op : Operation) : op.request.opType ≠ none := by
  cases op <;> exact Option.some_ne_none _

namespace ClientCall

variable {lib : ClientLib} {send : ManagerSender} {call : ClientCall} {op : Operation}

/-- A call that passes its local checks sends the request that says its operation,
and every server that gets it does what the handler of the operation does. -/
def Meant (lib : ClientLib) (call : ClientCall) : Prop :=
  ∀ send op, call.meaning lib = .ok op →
    ∃ request, (call.run lib send).sent = some request ∧ request = op.request ∧
      ∀ unset, discoveryManager unset request = .ok (request.received unset) ∧
        ∀ serialises env r,
          onApply serialises (request.received unset) env r = op.perform serialises env r

/-- `create_config_by_file`, `create_config_by_json` and the methods `modify_servlet`
never write the request of their operation; `remove_config` with a `ModuleVersion` does
so when only the major version is given. -/
def Exact : ClientCall → Prop
  | .createConfigByFile .. | .createConfigByJson _ => False
  | .removeConfigModule _ version => version.minor = 0 ∧ version.patch = 0
  | .modifyServlet _ | .modifyServletByJson _ | .modifyServletByFile _ => False
  | _ => True

theorem run_sent (means : call.meaning lib = .ok op) :
    (call.run lib send).sent = some (call.written op.request) := by
  rw [run_eq, means]
  exact submit_sent

theorem run_sent_of_error {err : Status} (checked : call.meaning lib = .error err) :
    (call.run lib send).sent = none := by
  rw [run_eq, checked]
  rfl

theorem unset_opType_ne : { op.request with opType := none } ≠ op.request := by
  intro same
  exact op.request_opType (congrArg ManagerRequest.opType same).symm

theorem other_opType_ne {info : ServletInfo} (means : Operation.modifyServlet info = op) :
    { op.request with opType := some .opCreateServlet } ≠ op.request := by
  intro same
  subst means
  have opTypes := Option.some.inj (congrArg ManagerRequest.opType same)
  cases opTypes

theorem written_eq_iff (means : call.meaning lib = .ok op) :
    call.written op.request = op.request ↔ call.Exact := by
  cases call with
  | createConfigByFile => exact iff_of_false unset_opType_ne id
  | createConfigByJson => exact iff_of_false unset_opType_ne id
  | removeConfigModule name version =>
    cases Except.ok.inj means
    constructor
    · intro same
      have infos := Option.some.inj (congrArg ManagerRequest.configInfo same)
      have versions := Option.some.inj (congrArg ConfigInfo.version infos)
      have patch : version.patch = version.minor := congrArg ModuleVersion.minor versions
      have zero : 0 = version.patch := congrArg ModuleVersion.patch versions
      exact ⟨patch ▸ zero.symm, zero.symm⟩
    · intro ⟨minor, patch⟩
      cases version
      subst minor patch
      rfl
  | modifyServlet info => exact iff_of_false (other_opType_ne (Except.ok.inj means)) id
  | modifyServletByJson json =>
    obtain ⟨info, same⟩ := map_eq_ok means
    exact iff_of_false (other_opType_ne same) id
  | modifyServletByFile path =>
    obtain ⟨info, same⟩ := map_eq_ok means
    exact iff_of_false (other_opType_ne same) id
  | _ => exact iff_of_true rfl trivial

theorem meant_iff : call.Meant lib ↔ call.Refused lib ∨ call.Exact := by
  constructor
  · intro meant
    by_cases refused : call.Refused lib
    · exact .inl refused
    · right
      have ⟨op, means⟩ : ∃ op, call.meaning lib = .ok op := by simpa [Refused] using refused
      obtain ⟨request, sent, said, _⟩ := meant (fun _ => .error ⟨.unavailable, []⟩) op means
      have written := Option.some.inj ((run_sent means).symm.trans sent)
      exact (written_eq_iff means).mp (written.trans said)
  · intro fine send op means
    rcases fine with refused | exact
    · exact absurd means (refused op)
    · refine ⟨call.written op.request, run_sent means, (written_eq_iff means).mpr exact, ?_⟩
      rw [(written_eq_iff means).mpr exact]
      intro unset
      exact ⟨discoveryManager_request unset op,
        fun serialises env r => onApply_request serialises unset op env r⟩

/-- Two calls of one operation, given in two ways, send the same. -/
theorem Meant.sent_eq {other : ClientCall} (meant : call.Meant lib) (otherMeant : other.Meant lib)
    (same : call.meaning lib = other.meaning lib) :
    (call.run lib send).sent = (other.run lib send).sent := by
  cases means : call.meaning lib with
  | error err => rw [run_sent_of_error means, run_sent_of_error (same.symm.trans means)]
  | ok op =>
    obtain ⟨request, sent, said, _⟩ := meant send op means
    obtain ⟨otherRequest, otherSent, otherSaid, _⟩ := otherMeant send op (same.symm.trans means)
    rw [sent, otherSent, said, otherSaid]

theorem requests_meant_iff (lib : ClientLib) (call : ClientCall) :
    (call.Meant lib ↔ call.Refused lib ∨ call.Exact) ∧
      (call.Exact → ∀ other : ClientCall, other.Exact → call.meaning lib = other.meaning lib →
        ∀ send, (call.run lib send).sent = (other.run lib send).sent) := by
  refine ⟨meant_iff, ?_⟩
  intro exact other otherExact same send
  exact Meant.sent_eq (meant_iff.mpr (.inr exact)) (meant_iff.mpr (.inr otherExact)) same

end ClientCall

theorem removed_version_loses_its_patch : ¬ ∀ lib call, ClientCall.Meant lib call := by
  intro meant
  have removed := meant loadsNothing (.removeConfigModule [97] ⟨1, 2, 3⟩)
  obtain ⟨request, sent, said, _⟩ :=
    removed (fun _ => .ok ⟨.success, []⟩) (.removeConfig [97] (some ⟨1, 2, 3⟩)) rfl
  have written : request.configInfo = some { name := [97], version := some ⟨1, 3, 0⟩ } := by
    cases Option.some.inj sent
    rfl
  rw [said] at written
  exact absurd written (by decide)

end EA
