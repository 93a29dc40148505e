import SentinelGRC.Contracts.Fields
import SentinelGRC.Python.IpAddress

/-!
The security-alert contract. An alert is checked field by field; its timestamp is read
after its texts, its kind and its event code, and before its references and its context.
-/

namespace SentinelGRC.Contracts

open Python Json

variable {F : Type}

/-! ### Tables -/

def alertSchemaVersion : Text := lit "security_alert.v1"

def alertRequired : List Text :=
  [lit "schema_version", lit "source", lit "source_event_id", lit "observed_at", lit "asset_id",
    lit "kind", lit "severity", lit "title", lit "risk_owner", lit "event_code",
    lit "evidence_refs"]

def alertAllowed : List Text := alertRequired ++ [lit "source_ip", lit "target_user"]

/-- The keys of `CONTROL_BY_KIND` and of `EVENT_CODE_BY_KIND`. -/
inductive AlertKind
  | bruteForce
  | accountLockout
  | privilegeEscalation
  deriving DecidableEq

def AlertKind.text : AlertKind → Text
  | .bruteForce => lit "brute_force"
  | .accountLockout => lit "account_lockout"
  | .privilegeEscalation => lit "privilege_escalation"

/-- `CONTROL_BY_KIND`. -/
def AlertKind.control : AlertKind → Text
  | .bruteForce => lit "SEC-AUTH-001"
  | .accountLockout => lit "SEC-IAM-002"
  | .privilegeEscalation => lit "SEC-IAM-003"

/-- `EVENT_CODE_BY_KIND`. -/
def AlertKind.eventCode : AlertKind → ℤ
  | .bruteForce => 4625
  | .accountLockout => 4740
  | .privilegeEscalation => 4672

def parseAlertKind (t : Text) : Option AlertKind :=
  [AlertKind.bruteForce, .accountLockout, .privilegeEscalation].find? fun k => k.text = t

/-- `SEVERITIES`. -/
def alertSeverities : List Text := [lit "low", lit "medium", lit "high", lit "critical"]

def alertLabel : Text := lit "security alert"

/-! ### Checks -/

variable [PyFloat F]

/-- `_required_text`. -/
def requiredText (payload : Fields F) (name : String) (maximum : ℕ) : Except PyError Text :=
  text payload (lit name) maximum alertLabel

/-- `_timestamp`. -/
def alertTimestamp (value : Json F) : Except PyError Text := do
  let parsed ← parseRfc3339 value alertLabel (lit "observed_at")
  let utc ← parsed.astimezone
  return utc.isoformatZ

/-- `_validate_alert_shape`. -/
def validateAlertShape (alert : Fields F) : Except PyError Unit := do
  checkShape alertLabel alertAllowed alertRequired alert
  if !(get alert (lit "schema_version")).pyEq (.str alertSchemaVersion) then
    .error (.valueError (lit "security alert schema_version must be " ++ alertSchemaVersion))
  else .ok ()

/-- The texts of `_required_alert_fields`. -/
structure AlertTexts where
  source : Text
  sourceEventId : Text
  assetId : Text
  title : Text
  riskOwner : Text

/-- The identifiers of an alert, checked in turn. -/
def checkIdentifiers : List (String × Text) → Except PyError Unit
  | [] => .ok ()
  | (name, value) :: rest =>
    if !isIdentifier value then .error (invalid alertLabel (lit name)) else checkIdentifiers rest

/-- `_required_alert_fields`. -/
def requiredAlertFields (alert : Fields F) : Except PyError AlertTexts := do
  let source ← requiredText alert "source" 64
  let sourceEventId ← requiredText alert "source_event_id" 128
  let assetId ← requiredText alert "asset_id" 128
  let title ← requiredText alert "title" 512
  let riskOwner ← requiredText alert "risk_owner" 128
  checkIdentifiers [("source", source), ("source_event_id", sourceEventId), ("asset_id", assetId),
    ("risk_owner", riskOwner)]
  if !isSourceIdentifier source then
    .error (.valueError (lit "security alert source must use canonical lowercase"))
  else .ok ⟨source, sourceEventId, assetId, title, riskOwner⟩

def isBool : Json F → Bool
  | .bool _ => true
  | _ => false

/-- `_event_fields`, up to its timestamp. -/
def eventKind (alert : Fields F) : Except PyError (AlertKind × Text × Json F) := do
  let kindText ← requiredText alert "kind" 64
  let severity ← requiredText alert "severity" 16
  match parseAlertKind kindText with
  | none => .error (.valueError (lit "unsupported security alert kind: " ++ kindText))
  | some kind =>
    let eventCode := get alert (lit "event_code")
    if severity ∉ alertSeverities then
      .error (.valueError (lit "security alert severity is invalid"))
    else if isBool eventCode || !eventCode.pyEq (.int kind.eventCode) then
      .error (.valueError (lit "security alert event_code does not match kind"))
    else .ok (kind, severity, eventCode)

/-- The results of `_event_fields`. -/
structure AlertEvent (F : Type) where
  kind : AlertKind
  severity : Text
  eventCode : Json F
  observedAt : Text
  references : List Text

/-- `_event_fields`. -/
def eventFields (alert : Fields F) : Except PyError (AlertEvent F) := do
  let (kind, severity, eventCode) ← eventKind alert
  let observedAt ← alertTimestamp (get alert (lit "observed_at"))
  let references ← evidenceRefs (get alert (lit "evidence_refs")) alertLabel
  return ⟨kind, severity, eventCode, observedAt, references⟩

/-- `_optional_context`. -/
def optionalContext (alert : Fields F) : Except PyError (Option Text × Option Text) := do
  let sourceIp ← optionalText alert (lit "source_ip") 64 alertLabel
  if sourceIp.any fun t => !isIpAddress t then .error (invalid alertLabel (lit "source_ip"))
  else do
    let targetUser ← optionalText alert (lit "target_user") 256 alertLabel
    return (sourceIp, targetUser)

/-! ### Normalization -/

/-- The finding that an alert becomes. -/
structure AlertFinding (F : Type) where
  findingId : Text
  domain : Text
  source : Text
  controlId : Text
  assetId : Text
  title : Text
  riskOwner : Text
  severity : Text
  details : Fields F

/-- A text or `None`. -/
def optionalValue : Option Text → Json F
  | none => .null
  | some t => .str t

/-- `normalize_security_alert_v1`. -/
def normalizeSecurityAlertV1 (H : Digest) (alert : Json F) : Except PyError (AlertFinding F) :=
  match alert with
  | .obj fields => do
    validateAlertShape fields
    let texts ← requiredAlertFields fields
    let event ← eventFields fields
    let (sourceIp, targetUser) ← optionalContext fields
    let findingId ← contractId H "SEC-ALERT-"
      [alertSchemaVersion, texts.source, texts.sourceEventId, texts.assetId, event.kind.text]
    return {
      findingId
      domain := lit "security"
      source := texts.source
      controlId := event.kind.control
      assetId := texts.assetId
      title := texts.title
      riskOwner := texts.riskOwner
      severity := event.severity
      details := [(lit "schema_version", .str alertSchemaVersion),
        (lit "source_event_id", .str texts.sourceEventId), (lit "observed_at", .str event.observedAt),
        (lit "kind", .str event.kind.text), (lit "event_code", event.eventCode),
        (lit "source_ip", optionalValue sourceIp), (lit "target_user", optionalValue targetUser),
        (lit "evidence_refs", .arr (event.references.map .str))] }
  | _ => .error (.valueError (lit "security alert must be an object"))

/-! ### Exceptions -/

theorem valueErrorsOnly_checkIdentifiers (named : List (String × Text)) :
    ValueErrorsOnly (checkIdentifiers named) := by
  induction named with
  | nil => exact raises_ok ()
  | cons f rest ih =>
    rw [checkIdentifiers]
    exact valueErrorsOnly_ite.mpr fun _ => ih

theorem valueErrorsOnly_validateAlertShape (alert : Fields F) :
    ValueErrorsOnly (validateAlertShape alert) := by
  refine (valueErrorsOnly_checkShape _ _ _ _).bind fun _ _ => ?_
  exact valueErrorsOnly_ite.mpr fun _ => raises_ok ()

omit [PyFloat F] in
theorem valueErrorsOnly_requiredAlertFields (alert : Fields F) :
    ValueErrorsOnly (requiredAlertFields alert) := by
  unfold requiredAlertFields requiredText
  refine (valueErrorsOnly_text _ _ _ _).bind fun source _ => ?_
  refine (valueErrorsOnly_text _ _ _ _).bind fun sourceEventId _ => ?_
  refine (valueErrorsOnly_text _ _ _ _).bind fun assetId _ => ?_
  refine (valueErrorsOnly_text _ _ _ _).bind fun title _ => ?_
  refine (valueErrorsOnly_text _ _ _ _).bind fun riskOwner _ => ?_
  refine (valueErrorsOnly_checkIdentifiers _).bind fun _ _ => ?_
  exact valueErrorsOnly_ite.mpr fun _ => raises_ok _

theorem valueErrorsOnly_eventKind (alert : Fields F) : ValueErrorsOnly (eventKind alert) := by
  unfold eventKind requiredText
  refine (valueErrorsOnly_text _ _ _ _).bind fun kindText _ => ?_
  refine (valueErrorsOnly_text _ _ _ _).bind fun severity _ => ?_
  cases parseAlertKind kindText with
  | none => exact valueErrorsOnly_valueError _
  | some kind =>
    refine valueErrorsOnly_ite.mpr fun _ => ?_
    exact valueErrorsOnly_ite.mpr fun _ => raises_ok _

omit [PyFloat F] in
theorem valueErrorsOnly_optionalContext (alert : Fields F) :
    ValueErrorsOnly (optionalContext alert) := by
  refine (valueErrorsOnly_optionalText _ _ _ _).bind fun sourceIp _ => ?_
  refine valueErrorsOnly_ite.mpr fun _ => ?_
  exact (valueErrorsOnly_optionalText _ _ _ _).bind fun targetUser _ => raises_ok _

omit [PyFloat F] in
theorem valueErrorsOnly_alertTimestamp (value : Json F) :
    ValueErrorsOnly (alertTimestamp value) ↔
      ∀ d, parseRfc3339 value alertLabel (lit "observed_at") = .ok d → d.InRange := by
  unfold alertTimestamp
  refine (valueErrorsOnly_parseRfc3339 _ _ _).bind_iff.trans (forall₂_congr fun d _ => ?_)
  refine raises_bind.trans ?_
  rw [← valueErrorsOnly_astimezone]
  exact ⟨And.left, fun h => ⟨h, fun u _ => raises_ok _⟩⟩

/-- The alert passes the checks before its timestamp, which denotes an instant. -/
structure AlertDated (alert : Json F) (d : AwareDatetime) : Prop where
  checked : ∃ fields, alert = .obj fields ∧ validateAlertShape fields = .ok () ∧
    (∃ texts, requiredAlertFields fields = .ok texts) ∧ (∃ kind, eventKind fields = .ok kind) ∧
    parseRfc3339 (get fields (lit "observed_at")) alertLabel (lit "observed_at") = .ok d

/-- An alert is refused with a `ValueError` or accepted, unless its instant is out of range. -/
theorem valueErrorsOnly_normalizeSecurityAlertV1 (H : Digest) (alert : Json F) :
    ValueErrorsOnly (normalizeSecurityAlertV1 H alert) ↔ ∀ d, AlertDated alert d → d.InRange := by
  cases alert with
  | obj fields =>
    unfold normalizeSecurityAlertV1
    refine (valueErrorsOnly_validateAlertShape fields).bind_iff.trans ?_
    constructor
    · rintro h d ⟨fields', hfields, hshape, ⟨texts, htexts⟩, ⟨kind, hkind⟩, hd⟩
      obtain rfl := Json.obj.inj hfields
      have hrest := (valueErrorsOnly_requiredAlertFields fields).bind_iff.mp (h () hshape)
      have hevent := (raises_bind.mp (hrest texts htexts)).1
      have hrest := (valueErrorsOnly_eventKind fields).bind_iff.mp hevent
      have hstamp := (raises_bind.mp (hrest kind hkind)).1
      exact (valueErrorsOnly_alertTimestamp _).mp hstamp d hd
    · intro h _ hshape
      refine (valueErrorsOnly_requiredAlertFields fields).bind_iff.mpr fun texts htexts => ?_
      refine Raises.bind ?_ fun event _ => ?_
      · refine (valueErrorsOnly_eventKind fields).bind_iff.mpr fun kind hkind => ?_
        refine Raises.bind ?_ fun observedAt _ => ?_
        · refine (valueErrorsOnly_alertTimestamp _).mpr fun d hd => ?_
          exact h d ⟨fields, rfl, hshape, ⟨texts, htexts⟩, ⟨kind, hkind⟩, hd⟩
        · exact (valueErrorsOnly_evidenceRefs _ _).bind fun _ _ => raises_ok _
      · refine (valueErrorsOnly_optionalContext _).bind fun context _ => ?_
        exact (valueErrorsOnly_contractId _ _ _).bind fun _ _ => raises_ok _
  | _ =>
    refine iff_of_true (valueErrorsOnly_valueError _) ?_
    rintro d ⟨fields, hfields, -⟩
    cases hfields

/-- An alert out of range ends in an overflow, and nothing else can happen to it. -/
theorem raises_normalizeSecurityAlertV1 (H : Digest) (alert : Json F) :
    Raises (fun e => e.IsValueError ∨ e = .overflowError) (normalizeSecurityAlertV1 H alert) := by
  have hvalue {α : Type} {r : Except PyError α} (h : ValueErrorsOnly r) :
      Raises (fun e => e.IsValueError ∨ e = .overflowError) r := h.mono fun e => .inl
  unfold normalizeSecurityAlertV1
  cases alert with
  | obj fields =>
    refine (hvalue (valueErrorsOnly_validateAlertShape fields)).bind fun _ _ => ?_
    refine (hvalue (valueErrorsOnly_requiredAlertFields fields)).bind fun texts _ => ?_
    refine Raises.bind ?_ fun event _ => ?_
    · refine (hvalue (valueErrorsOnly_eventKind fields)).bind fun kind _ => ?_
      refine Raises.bind ?_ fun observedAt _ => ?_
      · refine (hvalue (valueErrorsOnly_parseRfc3339 _ _ _)).bind fun d _ => ?_
        refine Raises.bind ?_ fun u _ => raises_ok _
        rcases d.astimezone_cases with ⟨-, u, hu⟩ | ⟨-, hoverflow⟩
        · rw [hu]
          exact raises_ok u
        · rw [hoverflow]
          exact raises_error.mpr (.inr rfl)
      · exact (hvalue (valueErrorsOnly_evidenceRefs _ _)).bind fun _ _ => raises_ok _
    · refine (hvalue (valueErrorsOnly_optionalContext fields)).bind fun context _ => ?_
      exact (hvalue (valueErrorsOnly_contractId _ _ _)).bind fun _ _ => raises_ok _
  | _ => exact hvalue (valueErrorsOnly_valueError _)

end SentinelGRC.Contracts
