import SentinelGRC.Governance.Arguments
import SentinelGRC.Governance.EventLog
import SentinelGRC.Governance.EvidenceStore
import SentinelGRC.Transition.Machine

/-!
The operations of `GovernanceCore`. An operation first checks its arguments and reads
the finding outside any transaction; what is left to do is a phase. A phase commits
one transaction, which sees the database as it is then and is all or nothing. Reads
and transactions of different operations interleave in any order, and an operation can
stop for good between two phases.
-/

namespace SentinelGRC.Governance

open Python Json Store Transition

variable {F : Type}

/-! ### Reads -/

def notFound (findingId : Text) : PyError :=
  .keyError (lit "finding " ++ findingId ++ lit " was not found")

def cannotTransition (status : Status) : PyError :=
  .valueError (lit "finding cannot transition from " ++ status.text)

/-- `get_finding`. -/
def getFinding (db : Db F) (findingId : Text) : Except PyError (Finding F) := do
  bindTexts [findingId]
  match db.findings.find? findingId with
  | some finding => return finding
  | none => throw (notFound findingId)

/-- The rows that `_has_duplicate_evidence` and `_existing_evidence_row` look for. -/
def isDuplicate (findingId digest source actorId : Text) (e : Evidence F) : Bool :=
  e.findingId == findingId && e.sha256 == digest && e.source == source && e.submittedBy == actorId &&
    e.status == lit "submitted"

def hasDuplicateEvidence (db : Db F) (findingId digest source actorId : Text) : Bool :=
  db.governanceEvidence.rows.any (isDuplicate findingId digest source actorId)

/-- `uuid.uuid4().hex[:12]` after a prefix. -/
def recordId (kind : String) (id : Uuid) : Text := lit kind ++ id.hex.take 12

/-- `str.upper` on hexadecimal digits. -/
def upperHex (t : Text) : Text :=
  t.map fun c => if h : 0x61 ≤ c.val ∧ c.val ≤ 0x66 then ⟨c.val - 0x20, by omega⟩ else c

/-- `"EV-" + uuid.uuid4().hex[:12].upper()`. -/
def evidenceId (id : Uuid) : Text := lit "EV-" ++ upperHex (id.hex.take 12)

/-! ### Mutations -/

/-- The `updates` of a mutation beside status and time. -/
inductive Updates
  | none
  | treatment (treatmentType : Treatment) (reason actionOwner : Text) (dueDate : Option Text)
  | implementedBy (implementer : Text)

def Updates.texts : Updates → List Text
  | .none => []
  | .treatment _ reason actionOwner dueDate => [reason, actionOwner] ++ dueDate.toList
  | .implementedBy implementer => [implementer]

def Updates.apply : Updates → Finding F → Finding F
  | .none, row => row
  | .treatment treatmentType reason actionOwner dueDate, row =>
    { row with
      treatmentType := some treatmentType
      treatmentReason := some reason
      actionOwner := some actionOwner
      dueDate := dueDate }
  | .implementedBy implementer, row => { row with implementer := some implementer }

@[simp] theorem Updates.findingId_apply (u : Updates) (row : Finding F) :
    (u.apply row).findingId = row.findingId := by
  cases u <;> rfl

/-- The `workflow` statement of a mutation. -/
inductive Workflow
  | riskRecord (row : RiskRecord)
  | riskTreatment (row : RiskTreatment)
  | approvalRecord (row : ApprovalRecord)
  /-- The owner is the `action_owner` read, which may be null. -/
  | actionItem (actionId findingId : Text) (owner : Option Text) (implementer : Text)
      (dueDate : Option Text)
  | verificationRecord (row : VerificationRecord)
  | closureRecord (row : ClosureRecord)

/-- `INSERT ... ON CONFLICT(finding_id) DO UPDATE`. -/
def upsertRisk (records : Unique RiskRecord RiskRecord.clash) (r : RiskRecord) :
    Option (Unique RiskRecord RiskRecord.clash) :=
  if records.rows.any fun q => q.findingId == r.findingId then
    if h : (records.rows.map fun q => if q.findingId = r.findingId then r else q).Pairwise
        fun q s => RiskRecord.clash q s = false
    then some ⟨_, h⟩ else none
  else records.insert? r

def Workflow.execute (db : Db F) : Workflow → Except PyError (Db F)
  | .riskRecord row => do
    bindTexts [row.findingId, row.owner]
    let riskRecords ← inserted (upsertRisk db.riskRecords row)
    return { db with riskRecords }
  | .riskTreatment row => do
    bindTexts [row.findingId, row.reason, row.proposedBy]
    let riskTreatments ← inserted (db.riskTreatments.insert? row)
    return { db with riskTreatments }
  | .approvalRecord row => do
    bindTexts [row.findingId, row.actorId, row.reason]
    let approvalRecords ← inserted (db.approvalRecords.insert? row)
    return { db with approvalRecords }
  | .actionItem actionId findingId owner implementer dueDate => do
    bindTexts ([findingId, implementer] ++ owner.toList ++ dueDate.toList)
    match owner with
    | none => throw .integrityError
    | some owner =>
      let actionItems ← inserted (db.actionItems.insert?
        ⟨actionId, findingId, owner, implementer, dueDate, lit "in_progress"⟩)
      return { db with actionItems }
  | .verificationRecord row => do
    bindTexts [row.findingId, row.verifierId, row.notes]
    let verificationRecords ← inserted (db.verificationRecords.insert? row)
    return { db with verificationRecords }
  | .closureRecord row => do
    bindTexts [row.findingId, row.closedBy, row.reason]
    let closureRecords ← inserted (db.closureRecords.insert? row)
    return { db with closureRecords }

/-- The arguments of `_mutate`. -/
structure Mutation (F : Type) where
  findingId : Text
  eventType : EventType
  newStatus : Status
  details : Fields F
  updates : Updates
  allowedStatuses : List Status
  workflow : Workflow

/-- `UPDATE findings SET status, updated_at` and the further columns of a mutation. -/
def Mutation.apply (m : Mutation F) (now : F) (row : Finding F) : Finding F :=
  m.updates.apply { row with status := m.newStatus, updatedAt := now }

@[simp] theorem Mutation.findingId_apply (m : Mutation F) (now : F) (row : Finding F) :
    (m.apply now row).findingId = row.findingId := by
  simp [Mutation.apply]

theorem Mutation.findingId_stamped (m : Mutation F) (stamp : Stamp F) (row : Finding F) :
    (m.apply stamp.now row).findingId = row.findingId := m.findingId_apply stamp.now row

variable [PyFloat F]

/-- The transaction of `_mutate`, and the finding it leaves. -/
def mutate (H : Digest) (db : Db F) (actor : ActorContext) (m : Mutation F) (stamp : Stamp F) :
    Except PyError (Db F) := do
  bindTexts [m.findingId]
  match db.findings.find? m.findingId with
  | none => throw (notFound m.findingId)
  | some row =>
    if row.status ∉ m.allowedStatuses then throw (cannotTransition row.status)
    bindTexts m.updates.texts
    let findings := db.findings.modify m.findingId (m.apply stamp.now) (m.findingId_stamped stamp)
    let db ← event H { db with findings } m.findingId m.eventType actor m.details stamp.now stamp
    m.workflow.execute db

/-- `_treatment_approval_status`. -/
def treatmentApprovalStatus : Decision → Option Treatment → Status
  | .rejected, _ => .riskAssessed
  | .approved, some .accept => .accepted
  | .approved, _ => .approved

/-! ### Phases -/

/-- An operation that ends in `_mutate`, with its checked arguments and the finding it read. -/
inductive Change (F : Type)
  | assess (likelihood impact : Severity) (finding : Finding F)
  | propose (findingId : Text) (treatmentType : Treatment) (reason : RequiredText)
      (actionOwner : Identifier) (dueDate : Option Text)
  | approve (decision : Decision) (reason : Text) (finding : Finding F)
  | start (implementer : Identifier) (finding : Finding F)
  | verify (passed : Bool) (notes : Text) (finding : Finding F)
  | close (reason : Text) (finding : Finding F)

omit [PyFloat F] in
/-- The arguments that an operation passes to `_mutate`. -/
def Change.mutation (actor : ActorContext) (id : Uuid) : Change F → Mutation F
  | .assess likelihood impact finding =>
    { findingId := finding.findingId
      eventType := .riskAssessed
      newStatus := .riskAssessed
      details := [(lit "likelihood", .str likelihood.text), (lit "impact", .str impact.text)]
      updates := .none
      allowedStatuses := [.opened, .rejected]
      workflow := .riskRecord ⟨recordId "RS-" id, finding.findingId, likelihood, impact,
        finding.riskOwner, lit "open"⟩ }
  | .propose findingId treatmentType reason actionOwner dueDate =>
    { findingId := findingId
      eventType := .treatmentProposed
      newStatus := .pendingApproval
      details := [(lit "treatment_type", .str treatmentType.text), (lit "reason", .str reason.text),
        (lit "action_owner", .str actionOwner.text)]
      updates := .treatment treatmentType reason.text actionOwner.text dueDate
      allowedStatuses := [.riskAssessed]
      workflow := .riskTreatment ⟨recordId "RT-" id, findingId, treatmentType, reason.text,
        actor.actorId, lit "pending_approval"⟩ }
  | .approve decision reason finding =>
    { findingId := finding.findingId
      eventType := match decision with
        | .approved => .treatmentApproved
        | .rejected => .treatmentRejected
      newStatus := treatmentApprovalStatus decision finding.treatmentType
      details := [(lit "decision", .str decision.text), (lit "reason", .str reason)]
      updates := .none
      allowedStatuses := [.pendingApproval]
      workflow := .approvalRecord ⟨recordId "AP-" id, finding.findingId, decision, actor.actorId,
        actor.role, reason⟩ }
  | .start implementer finding =>
    { findingId := finding.findingId
      eventType := .actionStarted
      newStatus := .inProgress
      details := [(lit "implementer", .str implementer.text)]
      updates := .implementedBy implementer.text
      allowedStatuses := [.approved]
      workflow := .actionItem (recordId "ACT-" id) finding.findingId finding.actionOwner
        implementer.text finding.dueDate }
  | .verify passed notes finding =>
    { findingId := finding.findingId
      eventType := if passed then .verificationPassed else .verificationFailed
      newStatus := if passed then .verified else .inProgress
      details := [(lit "passed", .bool passed), (lit "notes", .str notes)]
      updates := .none
      allowedStatuses := [.pendingVerification]
      workflow := .verificationRecord ⟨recordId "VR-" id, finding.findingId, actor.actorId,
        if passed then lit "passed" else lit "failed", notes⟩ }
  | .close reason finding =>
    { findingId := finding.findingId
      eventType := .findingClosed
      newStatus := .closed
      details := [(lit "reason", .str reason)]
      updates := .none
      allowedStatuses := [.verified, .accepted]
      workflow := .closureRecord ⟨recordId "CL-" id, finding.findingId, actor.actorId, reason⟩ }

/-- What is left of an operation whose checks and first read are done. -/
inductive Phase (F : Type)
  /-- The transaction of `create_finding`; `upsert_finding` goes on after a conflict. -/
  | create (args : FindingArgs) (upsert : Option FindingArgs)
  | reassess (args : FindingArgs)
  | mutate (change : Change F)
  /-- `submit_evidence` on a finding read as pending verification. -/
  | duplicate (args : EvidenceArgs) (finding : Finding F)
  | persist (args : EvidenceArgs) (finding : Finding F)
  | commitEvidence (args : EvidenceArgs) (stored : EvidenceObject) (finding : Finding F)

/-- An operation under way: who runs it, the `uuid4` of the record it writes, what is left. -/
structure Pending (F : Type) where
  actor : ActorContext
  recordId : Uuid
  phase : Phase F

/-! ### Transactions -/

/-- The row that `create_finding` inserts. -/
def FindingArgs.row (args : FindingArgs) (stamp : Stamp F) : Finding F where
  findingId := args.findingId.text
  controlId := args.controlId.text
  assetId := args.assetId.text
  title := args.title.text
  riskOwner := args.riskOwner.text
  severity := args.severity
  status := .opened
  treatmentType := none
  treatmentReason := none
  dueDate := none
  actionOwner := none
  implementer := none
  evidenceSubmitter := none
  createdAt := stamp.now
  updatedAt := stamp.updatedAt

/-- The details of a creation and of a reassessment. -/
def FindingArgs.details (args : FindingArgs) : Fields F :=
  [(lit "control_id", .str args.controlId.text), (lit "asset_id", .str args.assetId.text),
    (lit "severity", .str args.severity.text)]

/-- The transaction of `create_finding`. -/
def createFinding (H : Digest) (db : Db F) (actor : ActorContext) (args : FindingArgs)
    (stamp : Stamp F) : Except PyError (Db F) :=
  let attempt := do
    bindTexts [args.findingId.text, args.controlId.text, args.assetId.text, args.title.text,
      args.riskOwner.text]
    let findings ← inserted (db.findings.insert? (args.row stamp))
    event H { db with findings } args.findingId.text .findingCreated actor args.details stamp.now stamp
  match attempt with
  | .error .integrityError =>
    .error (.valueError (lit "finding " ++ args.findingId.text ++ lit " already exists"))
  | outcome => outcome

/-- What a reassessment writes to the finding. -/
def FindingArgs.apply (args : FindingArgs) (now : F) (row : Finding F) : Finding F :=
  { row with
    title := args.title.text
    riskOwner := args.riskOwner.text
    severity := args.severity
    updatedAt := now }

omit [PyFloat F] in
theorem FindingArgs.findingId_apply (args : FindingArgs) (stamp : Stamp F) (row : Finding F) :
    (args.apply stamp.now row).findingId = row.findingId := rfl

/-- The second transaction of `upsert_finding`. -/
def reassessFinding (H : Digest) (db : Db F) (actor : ActorContext) (args : FindingArgs)
    (stamp : Stamp F) : Except PyError (Db F) := do
  bindTexts [args.findingId.text]
  match db.findings.find? args.findingId.text with
  | none => throw (.runtimeError (lit "finding disappeared during upsert"))
  | some row =>
    if row.controlId ≠ args.controlId.text ∨ row.assetId ≠ args.assetId.text then
      throw (.valueError (lit "finding identity cannot change during reassessment"))
    bindTexts [args.title.text, args.riskOwner.text]
    let findings := db.findings.modify args.findingId.text (args.apply stamp.now)
      (args.findingId_apply stamp)
    event H { db with findings } args.findingId.text .findingReassessed actor args.details stamp.now
      stamp

/-- The row that a submission inserts. -/
def EvidenceArgs.row (args : EvidenceArgs) (findingId : Text) (actor : ActorContext)
    (evidenceId : Text) (stored : EvidenceObject) (now : F) : Evidence F where
  evidenceId := evidenceId
  findingId := findingId
  source := args.source.text
  sha256 := stored.sha256
  submittedBy := actor.actorId
  submittedAt := now
  status := lit "submitted"
  objectKey := stored.objectKey
  sizeBytes := stored.sizeBytes
  etag := stored.etag

def EvidenceArgs.details (args : EvidenceArgs) (evidenceId : Text) (stored : EvidenceObject) :
    Fields F :=
  [(lit "evidence_id", .str evidenceId), (lit "source", .str args.source.text),
    (lit "sha256", .str stored.sha256), (lit "object_key", .str stored.objectKey),
    (lit "size_bytes", .int stored.sizeBytes)]

/-- What a submission writes to the finding. -/
def submitted (actorId : Text) (now : F) (row : Finding F) : Finding F :=
  { row with
    status := .pendingVerification
    evidenceSubmitter := some actorId
    updatedAt := now }

omit [PyFloat F] in
theorem findingId_submitted (actor : ActorContext) (stamp : Stamp F) (row : Finding F) :
    (submitted actor.actorId stamp.now row).findingId = row.findingId := rfl

/-- The transaction of `_commit_evidence`; it commits nothing when the evidence is already there. -/
def commitEvidence (H : Digest) (db : Db F) (findingId : Text) (actor : ActorContext)
    (args : EvidenceArgs) (evidenceId : Text) (stored : EvidenceObject) (stamp : Stamp F) :
    Except PyError (Db F) := do
  bindTexts [findingId]
  match db.findings.find? findingId with
  | none => throw (notFound findingId)
  | some row =>
    if row.status ≠ .inProgress then
      bindTexts [findingId, args.digest, args.source.text, actor.actorId]
      if hasDuplicateEvidence db findingId args.digest args.source.text actor.actorId ∧
          row.status = .pendingVerification then return db
      throw (cannotTransition row.status)
    bindTexts [findingId, args.source.text, stored.sha256, actor.actorId, stored.objectKey, stored.etag]
    let governanceEvidence ← inserted
      (db.governanceEvidence.insert? (args.row findingId actor evidenceId stored stamp.now))
    let findings := db.findings.modify findingId (submitted actor.actorId stamp.now)
      (findingId_submitted actor stamp)
    event H { db with governanceEvidence, findings } findingId .evidenceSubmitted actor
      (args.details evidenceId stored) stamp.now stamp

/-! ### Operations -/

inductive Operation
  | createFinding (findingId controlId assetId title riskOwner severity : Text)
  | assessRisk (findingId likelihood impact : Text)
  | proposeTreatment (findingId treatmentType reason actionOwner : Text) (dueDate : Option Text)
  | approveTreatment (findingId decision reason : Text)
  | startAction (findingId implementer : Text)
  | submitEvidence (findingId source : Text) (content : Content)
  | verify (findingId : Text) (passed : Bool) (notes : Text)
  | close (findingId reason : Text)
  | upsertFinding (findingId controlId assetId title riskOwner severity : Text)

/-- The checks and the first read of an operation. -/
def begin (H : Digest) (db : Db F) (actor : ActorContext) : Operation → Except PyError (Phase F)
  | .createFinding findingId controlId assetId title riskOwner severity => do
    let args ← checkFinding actor findingId controlId assetId title riskOwner severity
    return .create args none
  | .upsertFinding findingId controlId assetId title riskOwner severity => do
    let args ← checkFinding actor findingId controlId assetId title riskOwner severity
    let again ← checkFinding actor args.findingId.text args.controlId.text args.assetId.text
      args.title.text args.riskOwner.text args.severity.text
    return .create again (some args)
  | .assessRisk findingId likelihood impact => do
    require actor [.riskOwner, .analyst, .admin]
    let likelihood ← riskRating likelihood (lit "likelihood")
    let impact ← riskRating impact (lit "impact")
    let finding ← getFinding db findingId
    return .mutate <| .assess likelihood impact finding
  | .proposeTreatment findingId treatment reason actionOwner dueDate => do
    require actor [.riskOwner, .analyst, .admin]
    let treatment ← treatmentType treatment
    let reason ← requiredText reason (lit "treatment reason") maxTextLength
    let actionOwner ← identifier actionOwner (lit "action_owner")
    let dueDate ← checkDueDate dueDate
    return .mutate <| .propose findingId treatment reason actionOwner dueDate
  | .approveTreatment findingId decision reason => do
    require actor [.approver, .ciso, .riskCommittee]
    let decision ← parseDecision decision
    let finding ← getFinding db findingId
    if actor.actorId = finding.riskOwner then
      throw (.permissionError (lit "risk owner cannot approve the same finding"))
    return .mutate <| .approve decision reason finding
  | .startAction findingId implementer => do
    require actor [.riskOwner, .analyst, .admin]
    let implementer ← identifier implementer (lit "implementer")
    let finding ← getFinding db findingId
    return .mutate <| .start implementer finding
  | .submitEvidence findingId source content => do
    require actor [.riskOwner, .analyst, .admin]
    let args ← prepareEvidence H source content
    let finding ← getFinding db findingId
    if finding.status = .pendingVerification then return .duplicate args finding
    if finding.status ≠ .inProgress then throw (cannotTransition finding.status)
    return .persist args finding
  | .verify findingId passed notes => do
    require actor [.analyst, .approver, .ciso, .riskCommittee]
    let finding ← getFinding db findingId
    if finding.implementer = some actor.actorId ∨ finding.evidenceSubmitter = some actor.actorId then
      throw (.permissionError
        (lit "verification must be independent from implementation and evidence submission"))
    return .mutate <| .verify passed notes finding
  | .close findingId reason => do
    require actor [.approver, .ciso, .riskCommittee]
    let finding ← getFinding db findingId
    if finding.status ≠ .verified ∧ finding.status ≠ .accepted then
      throw (.valueError
        (lit "finding cannot close before verification or accepted-risk treatment"))
    return .mutate <| .close reason finding

/-- How a phase ends. -/
inductive Outcome (F : Type)
  | next (phase : Phase F)
  | returned (finding : Finding F)
  | raised (error : PyError)

/-- The end of an operation with its last transaction, and with the row that it left. -/
def conclude (db : Db F) (findingId : Text) : Except PyError (Db F) → Db F × Outcome F
  | .ok db' =>
    (db', match db'.findings.find? findingId with
      | some row => .returned row
      | none => .raised (notFound findingId))
  | .error e => (db, .raised e)

variable {S : Type}

/-- One phase of an operation under way. -/
def advance (H : Digest) (store : EvidenceStore S) (db : Db F) (objects : S) (p : Pending F)
    (stamp : Stamp F) : (Db F × S) × Outcome F :=
  match p.phase with
  | .create args upsert =>
    match createFinding H db p.actor args stamp, upsert with
    | .error (.valueError message), some args =>
      if lit "already exists" <:+: message then ((db, objects), .next (.reassess args))
      else ((db, objects), .raised (.valueError message))
    | outcome, _ =>
      let (db, outcome) := conclude db args.findingId.text outcome
      ((db, objects), outcome)
  | .reassess args =>
    let (db, outcome) :=
      conclude db args.findingId.text (reassessFinding H db p.actor args stamp)
    ((db, objects), outcome)
  | .duplicate args finding =>
    if hasDuplicateEvidence db finding.findingId args.digest args.source.text p.actor.actorId then
      ((db, objects), .returned finding)
    else ((db, objects), .raised (cannotTransition finding.status))
  | .persist args finding =>
    match store.persist objects args.raw with
    | (objects, .error e) => ((db, objects), .raised e)
    | (objects, .ok stored) =>
      if stored.sha256 ≠ args.digest then
        ((db, objects), .raised (.runtimeError
          (lit "evidence store returned inconsistent integrity metadata")))
      else ((db, objects), .next (.commitEvidence args stored finding))
  | .commitEvidence args stored finding =>
    let (db, outcome) := conclude db finding.findingId
      (commitEvidence H db finding.findingId p.actor args (evidenceId p.recordId) stored stamp)
    ((db, objects), outcome)
  | .mutate change =>
    let m := change.mutation p.actor p.recordId
    let (db, outcome) := conclude db m.findingId (mutate H db p.actor m stamp)
    ((db, objects), outcome)

/-! ### Runs -/

structure Sys (F S : Type) where
  db : Db F
  objects : S
  /-- The operations begun, with `none` for those that have ended. -/
  pending : List (Option (Pending F))

inductive Action (F : Type)
  /-- An operation begins, with the `uuid4` it will draw for its record. -/
  | call (actor : ActorContext) (operation : Operation) (recordId : Uuid)
  /-- The next phase of an operation. -/
  | resume (i : ℕ) (stamp : Stamp F)
  /-- An operation stops for good. -/
  | crash (i : ℕ)

inductive Answer (F : Type)
  | running
  | returned (finding : Finding F)
  | raised (error : PyError)
  | idle

def Sys.init (objects : S) : Sys F S := ⟨Db.empty, objects, []⟩

/-- Any number of operations, their phases in any order. -/
def governance (H : Digest) (store : EvidenceStore S) : Machine (Sys F S) (Action F) (Answer F) where
  step := fun s a =>
    match a with
    | .call actor operation recordId =>
      match begin H s.db actor operation with
      | .ok phase => ({ s with pending := s.pending ++ [some ⟨actor, recordId, phase⟩] }, .running)
      | .error e => (s, .raised e)
    | .resume i stamp =>
      match s.pending[i]? with
      | some (some p) =>
        let ((db, objects), outcome) := advance H store s.db s.objects p stamp
        match outcome with
        | .next phase => (⟨db, objects, s.pending.set i (some { p with phase })⟩, .running)
        | .returned finding => (⟨db, objects, s.pending.set i none⟩, .returned finding)
        | .raised e => (⟨db, objects, s.pending.set i none⟩, .raised e)
      | _ => (s, .idle)
    | .crash i => ({ s with pending := s.pending.set i none }, .idle)

end SentinelGRC.Governance
