import SentinelGRC.Python.Dict
import SentinelGRC.Python.Hashlib
import SentinelGRC.Store.Table
import SentinelGRC.Store.Unique

/-!
The governance database: findings, the records kept about them, their event log and
the two delivery queues. Columns that hold one of a fixed set of words are
enumerations; `text` gives the word. `REAL` columns hold finite floats.
-/

namespace SentinelGRC.Governance

open Python Store

/-! ### Words -/

inductive Role
  | admin
  | analyst
  | riskOwner
  | approver
  | ciso
  | riskCommittee
  deriving DecidableEq

def Role.text : Role → Text
  | .admin => lit "admin"
  | .analyst => lit "analyst"
  | .riskOwner => lit "risk_owner"
  | .approver => lit "approver"
  | .ciso => lit "ciso"
  | .riskCommittee => lit "risk_committee"

inductive Treatment
  | mitigate
  | accept
  | transfer
  | avoid
  deriving DecidableEq

def Treatment.text : Treatment → Text
  | .mitigate => lit "mitigate"
  | .accept => lit "accept"
  | .transfer => lit "transfer"
  | .avoid => lit "avoid"

/-- A severity, also a risk rating. -/
inductive Severity
  | low
  | medium
  | high
  | critical
  deriving DecidableEq

def Severity.text : Severity → Text
  | .low => lit "low"
  | .medium => lit "medium"
  | .high => lit "high"
  | .critical => lit "critical"

inductive Decision
  | approved
  | rejected
  deriving DecidableEq

def Decision.text : Decision → Text
  | .approved => lit "approved"
  | .rejected => lit "rejected"

/-- The statuses that an operation checks or writes. -/
inductive Status
  | opened
  | riskAssessed
  | pendingApproval
  | approved
  | inProgress
  | pendingVerification
  | rejected
  | verified
  | accepted
  | closed
  deriving DecidableEq

def Status.text : Status → Text
  | .opened => lit "open"
  | .riskAssessed => lit "risk_assessed"
  | .pendingApproval => lit "pending_approval"
  | .approved => lit "approved"
  | .inProgress => lit "in_progress"
  | .pendingVerification => lit "pending_verification"
  | .rejected => lit "rejected"
  | .verified => lit "verified"
  | .accepted => lit "accepted"
  | .closed => lit "closed"

inductive EventType
  | findingCreated
  | riskAssessed
  | treatmentProposed
  | treatmentApproved
  | treatmentRejected
  | actionStarted
  | evidenceSubmitted
  | verificationPassed
  | verificationFailed
  | findingClosed
  | findingReassessed
  deriving DecidableEq

def EventType.text : EventType → Text
  | .findingCreated => lit "finding_created"
  | .riskAssessed => lit "risk_assessed"
  | .treatmentProposed => lit "treatment_proposed"
  | .treatmentApproved => lit "treatment_approved"
  | .treatmentRejected => lit "treatment_rejected"
  | .actionStarted => lit "action_started"
  | .evidenceSubmitted => lit "evidence_submitted"
  | .verificationPassed => lit "verification_passed"
  | .verificationFailed => lit "verification_failed"
  | .findingClosed => lit "finding_closed"
  | .findingReassessed => lit "finding_reassessed"

/-! ### Actors and identities -/

/-- An actor as the trusted application layer supplies it. -/
structure ActorContext where
  actorId : Text
  role : Role
  authMethod : Text
  actorId_nonblank : blank actorId = false
  authMethod_nonblank : blank authMethod = false

/-- `uuid.uuid4().hex`. -/
structure Uuid where
  hex : Text
  length_eq : hex.length = 32
  isLowerHex : ∀ c ∈ hex, Python.isLowerHex c = true

/-! ### Findings and their records -/

structure Finding (F : Type) where
  findingId : Text
  controlId : Text
  assetId : Text
  title : Text
  riskOwner : Text
  severity : Severity
  status : Status
  treatmentType : Option Treatment
  treatmentReason : Option Text
  dueDate : Option Text
  actionOwner : Option Text
  implementer : Option Text
  evidenceSubmitter : Option Text
  createdAt : F
  updatedAt : F

structure RiskRecord where
  riskId : Text
  findingId : Text
  likelihood : Severity
  impact : Severity
  owner : Text
  status : Text

structure RiskTreatment where
  treatmentId : Text
  findingId : Text
  treatmentType : Treatment
  reason : Text
  proposedBy : Text
  status : Text

structure ApprovalRecord where
  approvalId : Text
  findingId : Text
  decision : Decision
  actorId : Text
  actorRole : Role
  reason : Text

structure ActionItem where
  actionId : Text
  findingId : Text
  owner : Text
  implementer : Text
  dueDate : Option Text
  status : Text

structure Evidence (F : Type) where
  evidenceId : Text
  findingId : Text
  source : Text
  sha256 : Text
  submittedBy : Text
  submittedAt : F
  status : Text
  objectKey : Text
  sizeBytes : ℕ
  etag : Text

structure VerificationRecord where
  verificationId : Text
  findingId : Text
  verifierId : Text
  result : Text
  notes : Text

structure ClosureRecord where
  closureId : Text
  findingId : Text
  closedBy : Text
  reason : Text

/-! ### Events and their deliveries -/

structure Event (F : Type) where
  eventId : Text
  findingId : Text
  eventSequence : ℕ
  eventType : EventType
  actorId : Text
  actorRole : Role
  authMethod : Text
  occurredAt : F
  detailsJson : Text
  previousHash : Text
  eventHash : Text

/-- A row of `governance_outbox`. -/
structure OutboxRow (F : Type) where
  outboxId : Text
  eventId : Text
  findingId : Text
  eventSequence : ℕ
  topic : Text
  payloadJson : Text
  createdAt : F
  availableAt : F
  attempts : ℕ
  lockedUntil : Option F
  workerId : Option Text
  lockToken : Option Text
  deliveredAt : Option F
  deadAt : Option F
  brokerMessageId : Option Text
  brokerAcceptedAt : Option F
  lastError : Option Text

/-- A row of `audit_exports`. -/
structure AuditExport (F : Type) where
  exportId : Text
  eventId : Text
  findingId : Text
  eventSequence : ℕ
  payloadJson : Text
  createdAt : F
  availableAt : F
  attempts : ℕ
  lockedUntil : Option F
  workerId : Option Text
  lockToken : Option Text
  archivedAt : Option F
  deadAt : Option F
  objectKey : Option Text
  sha256 : Option Text
  sizeBytes : Option ℕ
  etag : Option Text
  lastError : Option Text

/-! ### Constraints -/

variable {F : Type}

/-- `event_id` is the primary key, `event_hash` is unique. -/
def Event.clash (q r : Event F) : Bool := q.eventId == r.eventId || q.eventHash == r.eventHash

/-- `outbox_id` is the primary key; `event_id` and the place in the finding are unique. -/
def OutboxRow.clash (q r : OutboxRow F) : Bool :=
  q.outboxId == r.outboxId || q.eventId == r.eventId ||
    (q.findingId == r.findingId && q.eventSequence == r.eventSequence)

def AuditExport.clash (q r : AuditExport F) : Bool :=
  q.exportId == r.exportId || q.eventId == r.eventId ||
    (q.findingId == r.findingId && q.eventSequence == r.eventSequence)

/-- `risk_id` is the primary key, `finding_id` is unique. -/
def RiskRecord.clash (q r : RiskRecord) : Bool :=
  q.riskId == r.riskId || q.findingId == r.findingId

/-! ### The database -/

structure Db (F : Type) where
  findings : Table (Finding F) Text Finding.findingId
  riskRecords : Unique RiskRecord RiskRecord.clash
  riskTreatments : Table RiskTreatment Text RiskTreatment.treatmentId
  approvalRecords : Table ApprovalRecord Text ApprovalRecord.approvalId
  actionItems : Table ActionItem Text ActionItem.actionId
  governanceEvidence : Table (Evidence F) Text Evidence.evidenceId
  verificationRecords : Table VerificationRecord Text VerificationRecord.verificationId
  closureRecords : Table ClosureRecord Text ClosureRecord.closureId
  governanceEvents : Unique (Event F) Event.clash
  governanceOutbox : Unique (OutboxRow F) OutboxRow.clash
  auditExports : Unique (AuditExport F) AuditExport.clash

/-- The tables as `GovernanceCore` creates them. -/
def Db.empty : Db F :=
  ⟨Table.empty, Unique.empty, Table.empty, Table.empty, Table.empty, Table.empty, Table.empty,
    Table.empty, Unique.empty, Unique.empty, Unique.empty⟩

/-- The events of a finding, in the order of insertion. -/
def Db.eventsOf (db : Db F) (findingId : Text) : List (Event F) :=
  db.governanceEvents.rows.filter fun e => e.findingId = findingId

end SentinelGRC.Governance
