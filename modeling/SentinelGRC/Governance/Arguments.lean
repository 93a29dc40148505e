import SentinelGRC.Governance.Schema
import SentinelGRC.Python.Datetime

/-!
The checks that operations make on their arguments. A checked text carries the
proof of its bounds; the check is made on the text as given and its result is
stripped of surrounding white space.
-/

namespace SentinelGRC.Governance

open Python

def maxIdentifierLength : ℕ := 128

def maxTextLength : ℕ := 4096

def maxEvidenceBytes : ℕ := 256 * 1024

/-- A text that is not blank and not longer than a limit. -/
structure BoundedText (limit : ℕ) where
  text : Text
  nonblank : blank text = false
  short : text.length ≤ limit

abbrev Identifier := BoundedText maxIdentifierLength

abbrev RequiredText := BoundedText maxTextLength

/-- `_required_text`. -/
def requiredText (value field : Text) (limit : ℕ) : Except PyError (BoundedText limit) :=
  if h : blank value = true ∨ limit < value.length then
    .error (.valueError (field ++ lit " must be non-empty and at most " ++ natText limit ++
      lit " characters"))
  else .ok
    { text := strip value
      nonblank := by
        rw [not_or, Bool.not_eq_true] at h
        rw [blank_strip, h.1]
      short := by
        rw [not_or, not_lt] at h
        exact (length_strip_le value).trans h.2 }

/-- `_identifier`. -/
def identifier (value field : Text) : Except PyError Identifier :=
  requiredText value field maxIdentifierLength

/-- `str.lower`, as far as comparing the result with an English word can tell: of the code points
outside ASCII, only U+0130 and U+212A have ASCII letters in their lower case, the first next to a
combining dot and the second a `k`, which no rating contains. -/
def lower (t : Text) : Text :=
  t.map fun c => if h : 0x41 ≤ c.val ∧ c.val ≤ 0x5A then ⟨c.val + 0x20, lower_lt h⟩ else c

def severities : List Severity := [.low, .medium, .high, .critical]

def parseSeverity (value : Text) : Option Severity := severities.find? fun s => s.text = lower value

/-- `_severity`. -/
def severity (value : Text) : Except PyError Severity :=
  match parseSeverity value with
  | some s => .ok s
  | none => .error (.valueError (lit "severity must be low, medium, high, or critical"))

/-- `_risk_rating`. -/
def riskRating (value field : Text) : Except PyError Severity :=
  match parseSeverity value with
  | some s => .ok s
  | none => .error (.valueError (field ++ lit " must be low, medium, high, or critical"))

def treatments : List Treatment := [.mitigate, .accept, .transfer, .avoid]

/-- The membership test of `propose_treatment`. -/
def treatmentType (value : Text) : Except PyError Treatment :=
  match treatments.find? fun t => t.text = value with
  | some t => .ok t
  | none => .error (.valueError (lit "unsupported treatment: " ++ value))

/-- The membership test of `approve_treatment`. -/
def parseDecision (value : Text) : Except PyError Decision :=
  match [Decision.approved, .rejected].find? fun d => d.text = value with
  | some d => .ok d
  | none => .error (.valueError (lit "decision must be approved or rejected"))

/-- `_due_date`. -/
def checkDueDate : Option Text → Except PyError (Option Text)
  | none => .ok none
  | some value =>
    if isIsoDate value then .ok (some value)
    else .error (.valueError (lit "due_date must be an ISO date"))

/-- `_require`. -/
def require (actor : ActorContext) (roles : List Role) : Except PyError Unit :=
  if actor.role ∈ roles then .ok ()
  else .error (.permissionError (lit "role " ++ actor.role.text ++ lit " cannot perform this action"))

/-- The checked arguments of `create_finding` and `upsert_finding`. -/
structure FindingArgs where
  findingId : Identifier
  controlId : Identifier
  assetId : Identifier
  title : RequiredText
  riskOwner : Identifier
  severity : Severity

/-- The checks that `create_finding` and `upsert_finding` begin with. -/
def checkFinding (actor : ActorContext) (findingId controlId assetId title riskOwner severity : Text) :
    Except PyError FindingArgs := do
  require actor [.admin, .analyst]
  let findingId ← identifier findingId (lit "finding_id")
  let controlId ← identifier controlId (lit "control_id")
  let assetId ← identifier assetId (lit "asset_id")
  let title ← requiredText title (lit "title") maxTextLength
  let riskOwner ← identifier riskOwner (lit "risk_owner")
  let severity ← Governance.severity severity
  return ⟨findingId, controlId, assetId, title, riskOwner, severity⟩

/-- `bytes | str`. -/
inductive Content
  | bytes (raw : Bytes)
  | text (t : Text)

/-- The checked arguments of `submit_evidence`. -/
structure EvidenceArgs where
  source : Identifier
  raw : Bytes
  digest : Text

/-- `_prepare_evidence`. -/
def prepareEvidence (H : Digest) (source : Text) (content : Content) :
    Except PyError EvidenceArgs := do
  let source ← identifier source (lit "evidence source")
  let raw ← match content with
    | .bytes raw => .ok raw
    | .text t => encodeUtf8 t
  if raw.isEmpty ∨ maxEvidenceBytes < raw.length then
    throw (.valueError (lit "evidence content must be non-empty and within the size limit"))
  return ⟨source, raw, H.hexdigest raw⟩

end SentinelGRC.Governance
