import SentinelGRC.Connectors.ExternalFindings
import SentinelGRC.Contracts.SecurityAlert
import SentinelGRC.Python.JsonText

/-!
The connector of closed Mini-SOAR incidents. A finding is named after the digest of its
incident, so that its identifier, its source and its control are printable ASCII whatever the
texts of the incident are.
-/

namespace SentinelGRC.Connectors

open Python Json Contracts

/-! ### Tables -/

/-- The keys of `_CONTROL_BY_KIND`. -/
inductive IncidentKind
  | bruteForce
  | privilegeEscalation
  | malware
  deriving DecidableEq

def IncidentKind.text : IncidentKind → Text
  | bruteForce => lit "brute_force"
  | privilegeEscalation => lit "privilege_escalation"
  | malware => lit "malware"

/-- `_CONTROL_BY_KIND`. -/
def IncidentKind.control : IncidentKind → Text
  | bruteForce => lit "SEC-AUTH-001"
  | privilegeEscalation => lit "SEC-IAM-003"
  | malware => lit "SEC-END-001"

/-- `_LOWER_SHA256`. -/
def isLowerSha256 (t : Text) : Bool := t.length == 64 && t.all isLowerHex

variable {F : Type}

/-! ### Alerts -/

/-- `value is True`. -/
def isTrue : Json F → Bool
  | .bool true => true
  | _ => false

variable [PyFloat F]

/-- The identifier of the finding of an incident. -/
def incidentFindingId (H : Digest) (identity : Bytes) : Text :=
  lit "SEC-IR-" ++ Governance.upperHex ((H.hexdigest identity).take 16)

variable {H : Digest} {normalizeTimestamp : Text → Except PyError Text} {f : ExternalFinding F}

/-- What a finding of the connector has whatever its incident is. -/
structure FromMiniSoar (H : Digest) (f : ExternalFinding F) : Prop where
  findingId : ∃ identity, f.findingId = incidentFindingId H identity
  controlId : ∃ kind : IncidentKind, f.controlId = kind.control
  source : f.source = lit "minisoar_incident_response"

omit [PyFloat F] in
theorem plain_upperHex {t : Text} (h : ∀ c ∈ t, Plain c) : ∀ c ∈ Governance.upperHex t, Plain c := by
  intro c hc
  obtain ⟨d, hd, rfl⟩ := List.mem_map.mp hc
  split_ifs with hletter
  · exact ⟨by simp only; omega, by simp only; omega⟩
  · exact h d hd

end SentinelGRC.Connectors
