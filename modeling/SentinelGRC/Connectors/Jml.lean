import SentinelGRC.Connectors.ExternalFindings
import SentinelGRC.Contracts.Accepted

/-!
The connector of JML requests. A finding is named after its request, whose identifier loses
the prefix `JML-` when it has it; so an identifier and the same one behind the prefix name
the same finding, and these are the only two that do.
-/

namespace SentinelGRC.Connectors

open Python Json Contracts

/-! ### Optional prefixes -/

section

variable {α : Type} [DecidableEq α]

/-- `str.removeprefix`. -/
def removeprefix (p t : List α) : List α := if p <+: t then t.drop p.length else t

theorem removeprefix_append (p t : List α) : removeprefix p (p ++ t) = t := by
  rw [ removeprefix, if_pos (List.prefix_append p t), List.drop_left]

theorem removeprefix_of_not {p t : List α} (h : ¬ p <+: t) : removeprefix p t = t := if_neg h

/-- One text is the other behind the prefix, which the other does not have itself. -/
def PrefixedForm (p s t : List α) : Prop := s = p ++ t ∧ ¬ p <+: t

instance (p s t : List α) : Decidable (PrefixedForm p s t) := inferInstanceAs (Decidable (_ ∧ _))

/-- Different texts become the same exactly when one is the prefixed form of the other. -/
theorem removeprefix_eq_iff {p s t : List α} (hp : p ≠ []) :
    (s ≠ t ∧ removeprefix p s = removeprefix p t) ↔ PrefixedForm p s t ∨ PrefixedForm p t s := by
  constructor
  · rintro ⟨hne, h⟩
    by_cases hs : p <+: s
    · obtain ⟨s', rfl⟩ := hs
      rw [removeprefix_append] at h
      by_cases ht : p <+: t
      · obtain ⟨t', rfl⟩ := ht
        rw [removeprefix_append] at h
        exact absurd (congrArg _ h) hne
      · rw [removeprefix_of_not ht] at h
        exact .inl ⟨by rw [h], ht⟩
    · rw [removeprefix_of_not hs] at h
      by_cases ht : p <+: t
      · obtain ⟨t', rfl⟩ := ht
        rw [removeprefix_append] at h
        exact .inr ⟨by rw [h], hs⟩
      · rw [removeprefix_of_not ht] at h
        exact absurd h hne
  · have hform {s t : List α} (h : PrefixedForm p s t) :
        s ≠ t ∧ removeprefix p s = removeprefix p t := by
      obtain ⟨rfl, ht⟩ := h
      refine ⟨fun heq => hp ?_, ?_⟩
      · exact List.append_left_eq_self.mp heq
      · rw [removeprefix_append, removeprefix_of_not ht]
    rintro (h | h)
    · exact hform h
    · exact ⟨(hform h).1.symm, (hform h).2.symm⟩

end

/-! ### Normalization -/

variable {F : Type}

/-- The keys of `_CONTROL_BY_REQUEST_TYPE`. -/
inductive RequestType
  | joiner
  | mover
  | leaver
  deriving DecidableEq

def RequestType.text : RequestType → Text
  | joiner => lit "joiner"
  | mover => lit "mover"
  | leaver => lit "leaver"

/-- `_CONTROL_BY_REQUEST_TYPE`. -/
def RequestType.control : RequestType → Text
  | joiner => lit "SEC-IAM-004"
  | mover => lit "SEC-IAM-005"
  | leaver => lit "SEC-IAM-006"

def parseRequestType (t : Text) : Option RequestType :=
  [RequestType.joiner, .mover, .leaver].find? fun k => k.text = t

/-- `title_by_type`, at the type of the request. -/
def RequestType.title (username department oldDepartment : Text) : RequestType → Text
  | joiner => lit "Access provisioned for new hire " ++ username ++ lit " (" ++ department ++ lit ")"
  | mover => lit "Access changed for " ++ username ++ lit ": " ++ oldDepartment ++ lit " -> " ++
      department
  | leaver => lit "Access removed for departing employee " ++ username ++ lit " (" ++ department ++
      lit ")"

def RequestType.severity : RequestType → Text
  | leaver => lit "high"
  | _ => lit "medium"

/-- `_REQUEST_ID`. -/
def isRequestId (t : Text) : Bool :=
  t.head?.any isAlnum && t.length ≤ 64 &&
    t.all fun c => isAlnum c || c == ofChar '_' || c == ofChar '-'

/-- `_USERNAME`. -/
def isUsername (t : Text) : Bool :=
  1 ≤ t.length && t.length ≤ 64 &&
    t.all fun c => isAlnum c || c == ofChar '.' || c == ofChar '_' || c == ofChar '-'

/-- `_JML_REQUEST`. -/
def jmlRequest : Text := lit "JML request"

def jmlVerification : Text := lit "JML verification"

/-- The texts of a request. -/
structure JmlTexts where
  requestType : RequestType
  requestId : Text
  username : Text
  department : Text
  managerId : Text
  employeeId : Text
  requestedBy : Text

/-- The texts of a request, checked in turn; `repr` is the `repr` of a text. -/
def jmlTexts (repr : Text → Text) (request : Fields F) : Except PyError JmlTexts := do
  let requestType ← text request (lit "request_type") 16 jmlRequest
  match parseRequestType requestType with
  | none => .error (.valueError (lit "unsupported JML request_type: " ++ repr requestType))
  | some kind => do
    let requestId ← text request (lit "request_id") 64 jmlRequest
    if !isRequestId requestId then .error (invalid jmlRequest (lit "request_id"))
    else do
      let username ← text request (lit "username") 64 jmlRequest
      if !isUsername username then .error (invalid jmlRequest (lit "username"))
      else do
        let department ← text request (lit "department") 128 jmlRequest
        let managerId ← text request (lit "manager_id") 128 jmlRequest
        let employeeId ← text request (lit "employee_id") 128 jmlRequest
        let requestedBy ← text request (lit "requested_by") 128 jmlRequest
        return ⟨kind, requestId, username, department, managerId, employeeId, requestedBy⟩

/-- The identifier of the finding of a request. -/
def jmlFindingId (requestId : Text) : Text := lit "SEC-IAM-" ++ removeprefix (lit "JML-") requestId

/-- The finding of a closed request that was verified independently. -/
def jmlFinding (texts : JmlTexts) (oldDepartment verifierId executionActorId : Text) :
    ExternalFinding F where
  findingId := jmlFindingId texts.requestId
  source := lit "jml_automation"
  controlId := texts.requestType.control
  assetId := lit "AD:" ++ texts.username
  title := texts.requestType.title texts.username texts.department oldDepartment
  riskOwner := texts.managerId
  severity := texts.requestType.severity
  details := [(lit "request_type", .str texts.requestType.text),
    (lit "jml_request_id", .str texts.requestId), (lit "employee_id", .str texts.employeeId),
    (lit "department", .str texts.department), (lit "verification_result", .str (lit "passed")),
    (lit "verifier_id", .str verifierId), (lit "execution_actor_id", .str executionActorId),
    (lit "simulated", .bool true)]

/-- `old_department`, which only a mover must have. -/
def oldDepartment (request : Fields F) (kind : RequestType) : Except PyError Text :=
  match kind, get request (lit "old_department") with
  | .mover, .str t =>
    if isCanonicalText (.str t : Json F) 128 then .ok t
    else .error (invalid jmlRequest (lit "old_department"))
  | .mover, _ => .error (invalid jmlRequest (lit "old_department"))
  | _, _ => .ok []

variable [PyFloat F]

/-- `normalize_jml_request`, on what the bridge reads for a request: its row, its latest
verification and the actor of its latest execution. -/
def normalizeJmlRequest (repr : Text → Text) (request : Fields F)
    (verification : Option (Fields F)) (executionActorId : Option Text) :
    Except PyError (Option (ExternalFinding F)) :=
  if !(get request (lit "status")).pyEq (.str (lit "closed")) then .ok none
  else
    match verification with
    | none => .ok none
    | some verification =>
      if !(get verification (lit "result")).pyEq (.str (lit "passed")) then .ok none
      else do
        let texts ← jmlTexts repr request
        if !(get verification (lit "request_id")).pyEq (.str texts.requestId) then
          .error (.valueError (lit "JML verification does not belong to the request"))
        else do
          let verifierId ← text verification (lit "actor_id") 128 jmlVerification
          match executionActorId with
          | none => .ok none
          | some executionActorId =>
            if !isCanonicalText (.str executionActorId : Json F) 128 then
              .error (.valueError (lit "JML execution actor_id is invalid"))
            else if verifierId = texts.requestedBy ∨ verifierId = executionActorId then .ok none
            else do
              let oldDepartment ← oldDepartment request texts.requestType
              return some (jmlFinding texts oldDepartment verifierId executionActorId)

omit [PyFloat F] in
theorem jmlTexts_requestId {repr : Text → Text} {request : Fields F} {texts : JmlTexts}
    (h : jmlTexts repr request = .ok texts) :
    get request (lit "request_id") = .str texts.requestId ∧ isRequestId texts.requestId = true := by
  obtain ⟨requestType, -, h⟩ := bind_eq_ok.mp h
  cases hkind : parseRequestType requestType with
  | none =>
    rw [hkind] at h
    cases h
  | some kind =>
    rw [hkind] at h
    obtain ⟨requestId, hrequestId, h⟩ := bind_eq_ok.mp h
    obtain ⟨hid, h⟩ := ite_error_eq_ok.mp h
    obtain ⟨username, -, h⟩ := bind_eq_ok.mp h
    obtain ⟨-, h⟩ := ite_error_eq_ok.mp h
    obtain ⟨department, -, h⟩ := bind_eq_ok.mp h
    obtain ⟨managerId, -, h⟩ := bind_eq_ok.mp h
    obtain ⟨employeeId, -, h⟩ := bind_eq_ok.mp h
    obtain ⟨requestedBy, -, h⟩ := bind_eq_ok.mp h
    obtain rfl := Except.ok.inj h
    exact ⟨(text_eq_ok.mp hrequestId).1, by simpa using hid⟩

omit [PyFloat F] in
theorem valueErrorsOnly_jmlTexts (repr : Text → Text) (request : Fields F) :
    ValueErrorsOnly (jmlTexts repr request) := by
  refine (valueErrorsOnly_text _ _ _ _).bind fun requestType _ => ?_
  cases parseRequestType requestType with
  | none => exact valueErrorsOnly_valueError _
  | some kind =>
    refine (valueErrorsOnly_text _ _ _ _).bind fun requestId _ => ?_
    refine valueErrorsOnly_ite.mpr fun _ => ?_
    refine (valueErrorsOnly_text _ _ _ _).bind fun username _ => ?_
    refine valueErrorsOnly_ite.mpr fun _ => ?_
    refine (valueErrorsOnly_text _ _ _ _).bind fun department _ => ?_
    refine (valueErrorsOnly_text _ _ _ _).bind fun managerId _ => ?_
    refine (valueErrorsOnly_text _ _ _ _).bind fun employeeId _ => ?_
    exact (valueErrorsOnly_text _ _ _ _).bind fun requestedBy _ => raises_ok _

omit [PyFloat F] in
theorem valueErrorsOnly_oldDepartment (request : Fields F) (kind : RequestType) :
    ValueErrorsOnly (oldDepartment request kind) := by
  unfold oldDepartment
  split
  · split_ifs
    · exact raises_ok _
    · exact valueErrorsOnly_valueError _
  · exact valueErrorsOnly_valueError _
  · exact raises_ok _

/-- A request is accepted, passed over or refused with a `ValueError`. -/
theorem valueErrorsOnly_normalizeJmlRequest (repr : Text → Text) (request : Fields F)
    (verification : Option (Fields F)) (executionActorId : Option Text) :
    ValueErrorsOnly (normalizeJmlRequest repr request verification executionActorId) := by
  unfold normalizeJmlRequest
  split_ifs
  · exact raises_ok _
  cases verification with
  | none => exact raises_ok _
  | some verification =>
    simp only
    split_ifs
    · exact raises_ok _
    refine (valueErrorsOnly_jmlTexts repr request).bind fun texts _ => ?_
    refine valueErrorsOnly_ite.mpr fun _ => ?_
    refine (valueErrorsOnly_text _ _ _ _).bind fun verifierId _ => ?_
    cases executionActorId with
    | none => exact raises_ok _
    | some actorId =>
      refine valueErrorsOnly_ite.mpr fun _ => ?_
      split_ifs
      · exact raises_ok _
      · exact (valueErrorsOnly_oldDepartment _ _).bind fun oldDepartment _ => raises_ok _

/-- An accepted request becomes the finding of its texts. -/
theorem normalizeJmlRequest_eq_some {repr : Text → Text} {request : Fields F}
    {verification : Option (Fields F)} {executionActorId : Option Text} {f : ExternalFinding F}
    (h : normalizeJmlRequest repr request verification executionActorId = .ok (some f)) :
    ∃ texts oldDepartment verifierId actorId, jmlTexts repr request = .ok texts ∧
      f = jmlFinding texts oldDepartment verifierId actorId := by
  unfold normalizeJmlRequest at h
  obtain ⟨-, h⟩ := ite_none_eq_some.mp h
  cases verification with
  | none => cases h
  | some verification =>
    obtain ⟨-, h⟩ := ite_none_eq_some.mp h
    obtain ⟨texts, htexts, h⟩ := bind_eq_ok.mp h
    obtain ⟨-, h⟩ := ite_error_eq_ok.mp h
    obtain ⟨verifierId, -, h⟩ := bind_eq_ok.mp h
    cases executionActorId with
    | none => cases h
    | some actorId =>
      obtain ⟨-, h⟩ := ite_error_eq_ok.mp h
      obtain ⟨-, h⟩ := ite_none_eq_some.mp h
      obtain ⟨oldDepartment, -, h⟩ := bind_eq_ok.mp h
      obtain rfl := Option.some.inj (Except.ok.inj h)
      exact ⟨texts, oldDepartment, verifierId, actorId, htexts, rfl⟩

end SentinelGRC.Connectors
