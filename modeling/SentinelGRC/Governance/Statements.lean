import SentinelGRC.Governance.Effects
import SentinelGRC.Store.Session

/-!
The operations statement by statement, over a connection. Any statement can fail with a
database error, and so can the evidence store.
-/

namespace SentinelGRC.Governance

open Python Json Store

variable {F S : Type}

/-! ### Statements -/

/-- What a failing statement raises. -/
inductive DatabaseError
  | integrity
  | operational

def DatabaseError.raised : DatabaseError → PyError
  | .integrity => .integrityError
  | .operational => .operationalError

/-- A call of the core over its database. -/
abbrev Call (F α : Type) := Session (Db F) PyError α

/-- The statements that fail, by their number. -/
def raising (faults : ℕ → Option DatabaseError) : ℕ → Option PyError :=
  fun n => (faults n).map DatabaseError.raised

variable (faults : ℕ → Option DatabaseError)

/-- `FINDING_BY_ID_SQL`. -/
def selectFinding (findingId : Text) : Call F (Option (Finding F)) :=
  Session.query (raising faults) fun db => do
    bindTexts [findingId]
    return db.findings.find? findingId

/-- `get_finding`, over a connection of its own. -/
def getFindingCall (findingId : Text) : Call F (Finding F) := Session.scope do
  match ← selectFinding faults findingId with
  | some finding => return finding
  | none => Session.raise (notFound findingId)

def abort {α : Type} (e : PyError) : Call F α := do
  Session.rollback (raising faults)
  Session.raise e

variable [PyFloat F] (H : Digest)

/-- The statements of `_event`. -/
def eventStatements (findingId : Text) (eventType : EventType) (actor : ActorContext)
    (details : Fields F) (now : F) (stamp : Stamp F) : Call F Unit := do
  let previousHash ← Session.query (raising faults) fun db => do
    bindTexts [findingId]
    return chainedHash (db.eventsOf findingId)
  let eventSequence ← Session.query (raising faults) fun db => do
    bindTexts [findingId]
    return nextSequence (db.eventsOf findingId)
  let body := eventBody findingId eventType actor.actorId actor.role actor.authMethod now
    (.obj details) previousHash
  let eventHash ← Session.lift (chainHash H previousHash body)
  let eventId := stamp.eventId.hex
  let detailsJson ← Session.lift (dumps spacedStyle (.obj details))
  Session.execute (raising faults) fun db => do
    bindTexts [findingId, actor.actorId, actor.authMethod]
    let governanceEvents ← inserted (db.governanceEvents.insert? ⟨eventId, findingId,
      eventSequence, eventType, actor.actorId, actor.role, actor.authMethod, now, detailsJson,
      previousHash, eventHash⟩)
    return ((), { db with governanceEvents })
  let payloadJson ← Session.lift
    (dumps compact (.obj (eventPayload body eventId eventSequence eventHash)))
  Session.execute (raising faults) fun db => do
    let governanceOutbox ← inserted (db.governanceOutbox.insert? ⟨stamp.outboxId.hex, eventId,
      findingId, eventSequence, lit "governance.event.v1", payloadJson, now, now, 0, none, none,
      none, none, none, none, none, none⟩)
    return ((), { db with governanceOutbox })
  Session.execute (raising faults) fun db => do
    let auditExports ← inserted (db.auditExports.insert? ⟨stamp.exportId.hex, eventId, findingId,
      eventSequence, payloadJson, now, now, 0, none, none, none, none, none, none, none, none, none,
      none⟩)
    return ((), { db with auditExports })

/-- The statements of `_mutate` between `BEGIN` and its commit. -/
def mutateStatements (actor : ActorContext) (m : Mutation F) (stamp : Stamp F) : Call F Unit := do
  match ← selectFinding faults m.findingId with
  | none => abort faults (notFound m.findingId)
  | some row =>
    if row.status ∉ m.allowedStatuses then abort faults (cannotTransition row.status)
    else do
      Session.execute (raising faults) fun db => do
        bindTexts m.updates.texts
        return ((), { db with
          findings := db.findings.modify m.findingId (m.apply stamp.now)
            (m.findingId_stamped stamp) })
      eventStatements faults H m.findingId m.eventType actor m.details stamp.now stamp
      Session.execute (raising faults) fun db => do
        let db ← m.workflow.execute db
        return ((), db)

/-- `_mutate`. -/
def mutateCall (actor : ActorContext) (m : Mutation F) (stamp : Stamp F) : Call F (Finding F) :=
  Session.scope do
    Session.begin (raising faults)
    mutateStatements faults H actor m stamp
    Session.commit (raising faults)
    getFindingCall faults m.findingId

/-- The statements of `create_finding` between `BEGIN` and its commit. -/
def createStatements (actor : ActorContext) (args : FindingArgs) (stamp : Stamp F) : Call F Unit :=
  Session.handle (do
    Session.execute (raising faults) fun db => do
      bindTexts [args.findingId.text, args.controlId.text, args.assetId.text, args.title.text,
        args.riskOwner.text]
      let findings ← inserted (db.findings.insert? (args.row stamp))
      return ((), { db with findings })
    eventStatements faults H args.findingId.text .findingCreated actor args.details stamp.now stamp)
    fun e => match e with
      | .integrityError => abort faults
        (.valueError (lit "finding " ++ args.findingId.text ++ lit " already exists"))
      | e => Session.raise e

/-- The part of `create_finding` after its checks. -/
def createCall (actor : ActorContext) (args : FindingArgs) (stamp : Stamp F) : Call F (Finding F) := do
  Session.scope do
    Session.begin (raising faults)
    createStatements faults H actor args stamp
    Session.commit (raising faults)
  getFindingCall faults args.findingId.text

/-- The statements of the second transaction of `upsert_finding`. -/
def reassessStatements (actor : ActorContext) (args : FindingArgs) (stamp : Stamp F) :
    Call F Unit := do
  match ← selectFinding faults args.findingId.text with
  | none => abort faults (.runtimeError (lit "finding disappeared during upsert"))
  | some row =>
    if row.controlId ≠ args.controlId.text ∨ row.assetId ≠ args.assetId.text then
      abort faults (.valueError (lit "finding identity cannot change during reassessment"))
    else do
      Session.execute (raising faults) fun db => do
        bindTexts [args.title.text, args.riskOwner.text]
        return ((), { db with
          findings := db.findings.modify args.findingId.text (args.apply stamp.now)
            (args.findingId_apply stamp) })
      eventStatements faults H args.findingId.text .findingReassessed actor args.details stamp.now
        stamp

def reassessCall (actor : ActorContext) (args : FindingArgs) (stamp : Stamp F) :
    Call F (Finding F) := do
  Session.scope do
    Session.begin (raising faults)
    reassessStatements faults H actor args stamp
    Session.commit (raising faults)
  getFindingCall faults args.findingId.text

/-- `create_finding`, then the reassessment if the finding already exists. -/
def upsertCall (actor : ActorContext) (again args : FindingArgs) (stamp later : Stamp F) :
    Call F (Finding F) :=
  Session.handle (createCall faults H actor again stamp) fun e => match e with
    | .valueError message =>
      if lit "already exists" <:+: message then reassessCall faults H actor args later
      else Session.raise (.valueError message)
    | e => Session.raise e

/-- The statements of `_commit_evidence` between `BEGIN` and its end: is the evidence there? -/
def evidenceStatements (findingId : Text) (actor : ActorContext) (args : EvidenceArgs)
    (evidenceId : Text) (stored : EvidenceObject) (stamp : Stamp F) : Call F Bool := do
  match ← selectFinding faults findingId with
  | none => abort faults (notFound findingId)
  | some row =>
    if row.status ≠ .inProgress then do
      let existing ← Session.query (raising faults) fun db => do
        bindTexts [findingId, args.digest, args.source.text, actor.actorId]
        return hasDuplicateEvidence db findingId args.digest args.source.text actor.actorId
      if existing = true ∧ row.status = .pendingVerification then return true
      else abort faults (cannotTransition row.status)
    else do
      Session.execute (raising faults) fun db => do
        bindTexts [findingId, args.source.text, stored.sha256, actor.actorId, stored.objectKey,
          stored.etag]
        let governanceEvidence ← inserted
          (db.governanceEvidence.insert? (args.row findingId actor evidenceId stored stamp.now))
        return ((), { db with governanceEvidence })
      Session.execute (raising faults) fun db => return ((), { db with
        findings := db.findings.modify findingId (submitted actor.actorId stamp.now)
          (findingId_submitted actor stamp) })
      eventStatements faults H findingId .evidenceSubmitted actor (args.details evidenceId stored)
        stamp.now stamp
      return false

/-- `_commit_evidence`. -/
def commitEvidenceCall (findingId : Text) (actor : ActorContext) (args : EvidenceArgs)
    (evidenceId : Text) (stored : EvidenceObject) (stamp : Stamp F) :
    Call F (Option (Finding F)) := Session.scope do
  Session.begin (raising faults)
  let duplicate ← evidenceStatements faults H findingId actor args evidenceId stored stamp
  if duplicate then do
    Session.rollback (raising faults)
    let finding ← getFindingCall faults findingId
    return some finding
  else do
    Session.commit (raising faults)
    return none

/-! ### Calls -/

omit [PyFloat F] in
/-- The checks and the first read of an operation, over any way to raise and to read. -/
def beginWith {m : Type → Type} [Monad m] (lift : {α : Type} → Except PyError α → m α)
    (read : Text → m (Finding F)) (actor : ActorContext) : Operation → m (Phase F)
  | .createFinding findingId controlId assetId title riskOwner severity => do
    let args ← lift (checkFinding actor findingId controlId assetId title riskOwner severity)
    return .create args none
  | .upsertFinding findingId controlId assetId title riskOwner severity => do
    let args ← lift (checkFinding actor findingId controlId assetId title riskOwner severity)
    let again ← lift (checkFinding actor args.findingId.text args.controlId.text args.assetId.text
      args.title.text args.riskOwner.text args.severity.text)
    return .create again (some args)
  | .assessRisk findingId likelihood impact => do
    lift (require actor [.riskOwner, .analyst, .admin])
    let likelihood ← lift (riskRating likelihood (lit "likelihood"))
    let impact ← lift (riskRating impact (lit "impact"))
    let finding ← read findingId
    return .mutate <| .assess likelihood impact finding
  | .proposeTreatment findingId treatment reason actionOwner dueDate => do
    lift (require actor [.riskOwner, .analyst, .admin])
    let treatment ← lift (treatmentType treatment)
    let reason ← lift (requiredText reason (lit "treatment reason") maxTextLength)
    let actionOwner ← lift (identifier actionOwner (lit "action_owner"))
    let dueDate ← lift (checkDueDate dueDate)
    return .mutate <| .propose findingId treatment reason actionOwner dueDate
  | .approveTreatment findingId decision reason => do
    lift (require actor [.approver, .ciso, .riskCommittee])
    let decision ← lift (parseDecision decision)
    let finding ← read findingId
    if actor.actorId = finding.riskOwner then
      lift (.error (.permissionError (lit "risk owner cannot approve the same finding")))
    else return .mutate <| .approve decision reason finding
  | .startAction findingId implementer => do
    lift (require actor [.riskOwner, .analyst, .admin])
    let implementer ← lift (identifier implementer (lit "implementer"))
    let finding ← read findingId
    return .mutate <| .start implementer finding
  | .submitEvidence findingId source content => do
    lift (require actor [.riskOwner, .analyst, .admin])
    let args ← lift (prepareEvidence H source content)
    let finding ← read findingId
    if finding.status = .pendingVerification then return .duplicate args finding
    else if finding.status ≠ .inProgress then lift (.error (cannotTransition finding.status))
    else return .persist args finding
  | .verify findingId passed notes => do
    lift (require actor [.analyst, .approver, .ciso, .riskCommittee])
    let finding ← read findingId
    if finding.implementer = some actor.actorId ∨ finding.evidenceSubmitter = some actor.actorId then
      lift (.error (.permissionError
        (lit "verification must be independent from implementation and evidence submission")))
    else return .mutate <| .verify passed notes finding
  | .close findingId reason => do
    lift (require actor [.approver, .ciso, .riskCommittee])
    let finding ← read findingId
    if finding.status ≠ .verified ∧ finding.status ≠ .accepted then
      lift (.error (.valueError
        (lit "finding cannot close before verification or accepted-risk treatment")))
    else return .mutate <| .close reason finding

omit [PyFloat F] in
/-- `begin` is these checks over one state of the database. -/
theorem beginWith_eq (db : Db F) (actor : ActorContext) (operation : Operation) :
    beginWith H id (getFinding db) actor operation = begin H db actor operation := by
  cases operation <;> rfl

variable (store : EvidenceStore S) (objects : S)

/-- The part of `submit_evidence` after the evidence is stored. -/
def submitCall (actor : ActorContext) (id : Uuid) (args : EvidenceArgs) (stored : EvidenceObject)
    (finding : Finding F) (stamp : Stamp F) : Call F (Finding F) := do
  match ← commitEvidenceCall faults H finding.findingId actor args (evidenceId id) stored stamp with
  | some duplicate => return duplicate
  | none => getFindingCall faults finding.findingId

/-- What is left of an operation whose checks and first read are done. -/
def finishCall (actor : ActorContext) (id : Uuid) (stamp later : Stamp F) :
    Phase F → Call F (Finding F)
  | .create args none => createCall faults H actor args stamp
  | .create again (some args) => upsertCall faults H actor again args stamp later
  | .reassess args => reassessCall faults H actor args stamp
  | .mutate change => mutateCall faults H actor (change.mutation actor id) stamp
  | .duplicate args finding => do
    let existing ← Session.scope <| Session.query (raising faults) fun db => do
      bindTexts [finding.findingId]
      return hasDuplicateEvidence db finding.findingId args.digest args.source.text actor.actorId
    if existing then return finding else Session.raise (cannotTransition finding.status)
  | .persist args finding => do
    let stored ← Session.lift (store.persist objects args.raw).2
    if stored.sha256 ≠ args.digest then Session.raise (.runtimeError
      (lit "evidence store returned inconsistent integrity metadata"))
    else submitCall faults H actor id args stored finding stamp
  | .commitEvidence args stored finding => submitCall faults H actor id args stored finding stamp

/-- A whole operation, with the identity of its record and the stamps of its transactions. -/
def operationCall (actor : ActorContext) (operation : Operation) (id : Uuid)
    (stamp later : Stamp F) : Call F (Finding F) := do
  let phase ← beginWith H Session.lift (getFindingCall faults) actor operation
  finishCall faults H store objects actor id stamp later phase

end SentinelGRC.Governance
