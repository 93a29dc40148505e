import SentinelGRC.Audit.Lookup
import SentinelGRC.Connectors.MiniSoar
import SentinelGRC.Governance.EventLog
import SentinelGRC.Store.Unique

/-!
The import of a finding with the digest of its evidence. One transaction stores the finding
and queues the audit event of the import; a digest that the finding was imported with before
changes nothing, and answers with the event as long as that is not delivered.
-/

namespace SentinelGRC.Connectors

open Python Json Store Governance

variable {F T : Type}

/-! ### Tables -/

/-- A row of `external_findings`, with the column that the import adds. -/
structure ImportedRow (F T : Type) extends ExternalRow F T where
  lastEvidenceHash : Option Text

abbrev ImportedFindings (F T : Type) := Table (ImportedRow F T) Text fun r => r.findingId

/-- What an import answers with when its audit event is not delivered. -/
structure AuditEvent (F : Type) where
  eventId : Text
  findingId : Text
  evidenceHash : Text
  eventType : Text
  details : Audit.Details F

/-- A row of `external_finding_audit_outbox`, with the object that its `details_json` is the
text of. -/
structure AuditOutboxRow (F T : Type) extends AuditEvent F where
  createdAt : T
  deliveredAt : Option T

/-- The row of an import. -/
def AuditOutboxRow.isImport (findingId evidenceHash : Text) (r : AuditOutboxRow F T) : Bool :=
  r.findingId == findingId && r.evidenceHash == evidenceHash

/-- `PRIMARY KEY` and `UNIQUE(finding_id, evidence_hash)`. -/
def AuditOutboxRow.clash (q r : AuditOutboxRow F T) : Bool :=
  q.eventId == r.eventId || q.isImport r.findingId r.evidenceHash

abbrev AuditOutbox (F T : Type) := Unique (AuditOutboxRow F T) AuditOutboxRow.clash

/-- The two tables of the imports. -/
structure ImportDb (F T : Type) where
  findings : ImportedFindings F T
  outbox : AuditOutbox F T

def ImportDb.empty : ImportDb F T := ⟨Table.empty, Unique.empty⟩

/-- `SELECT ... WHERE finding_id = ? AND evidence_hash = ?`. -/
def ImportDb.import? (db : ImportDb F T) (findingId evidenceHash : Text) :
    Option (AuditOutboxRow F T) :=
  db.outbox.rows.find? (AuditOutboxRow.isImport findingId evidenceHash)

/-! ### Importing -/

inductive ImportAction
  | created
  | reassessed
  | replayed
  deriving DecidableEq

def ImportAction.text : ImportAction → Text
  | created => lit "created"
  | reassessed => lit "reassessed"
  | replayed => lit "replayed"

/-- The `INSERT`. -/
def newImport (finding : ExternalFinding F) (evidenceHash : Text) (current : T) : ImportedRow F T :=
  { newRow finding current with lastEvidenceHash := some evidenceHash }

/-- The `UPDATE`. -/
def reassessImport (finding : ExternalFinding F) (evidenceHash : Text) (current : T)
    (r : ImportedRow F T) : ImportedRow F T :=
  { reassess finding current r.toExternalRow with lastEvidenceHash := some evidenceHash }

theorem reassessImport_findingId (finding : ExternalFinding F) (evidenceHash : Text) (current : T)
    (r : ImportedRow F T) : (reassessImport finding evidenceHash current r).findingId = r.findingId :=
  rfl

/-- The texts of a finding that its statement binds; `details_json` is ASCII. -/
def ExternalFinding.texts (finding : ExternalFinding F) : List Text :=
  [finding.findingId, finding.source, finding.controlId, finding.assetId, finding.title,
    finding.riskOwner, finding.severity]

/-- The finding is inserted or, when there is one under its identifier, reassessed. -/
def storeImport (findings : ImportedFindings F T) (finding : ExternalFinding F)
    (evidenceHash : Text) (current : T) : Except PyError (ImportedFindings F T × ImportAction) := do
  bindTexts finding.texts
  match findings.find? finding.findingId with
  | none =>
    let findings ← inserted (findings.insert? (newImport finding evidenceHash current))
    return (findings, .created)
  | some _ =>
    return (findings.modify finding.findingId (reassessImport finding evidenceHash current)
      (reassessImport_findingId finding evidenceHash current), .reassessed)

/-- `f"bridge.minisoar.finding.{action}"`. -/
def importEventType (action : ImportAction) : Text := lit "bridge.minisoar.finding." ++ action.text

theorem distinct_auditDetails (controlId source : Text) :
    Distinct (.obj [(lit "control_id", .str controlId), (lit "source", .str source)] : Json F) := by
  rw [distinct_obj]
  refine ⟨?_, fun f hf => ?_⟩
  · change [lit "control_id", lit "source"].Nodup
    decide
  · simp only [List.mem_cons, List.not_mem_nil, or_false] at hf
    rcases hf with rfl | rfl <;> rfl

/-- `audit_details`. -/
def auditDetails (finding : ExternalFinding F) : Audit.Details F :=
  ⟨[(lit "control_id", .str finding.controlId), (lit "source", .str finding.source)],
    distinct_auditDetails finding.controlId finding.source⟩

/-- The row that an import queues under the digest of its seed. -/
def outboxRow (H : Digest) (finding : ExternalFinding F) (evidenceHash : Text) (action : ImportAction)
    (seed : Bytes) (current : T) : AuditOutboxRow F T where
  eventId := (H.hexdigest seed).take 24
  findingId := finding.findingId
  evidenceHash
  eventType := importEventType action
  details := auditDetails finding
  createdAt := current
  deliveredAt := none

/-- What the event id of an import is the digest of. -/
def eventSeed (findingId evidenceHash eventType : Text) : Text :=
  lit "minisoar-audit|" ++ findingId ++ lit "|" ++ evidenceHash ++ lit "|" ++ eventType

/-- The statements of an import that is not a replay. -/
def storeAndQueue (H : Digest) (db : ImportDb F T) (finding : ExternalFinding F)
    (evidenceHash : Text) (current : T) : Except PyError (ImportDb F T × ImportAction) := do
  let (findings, action) ← storeImport db.findings finding evidenceHash current
  let seed ← encodeUtf8 (eventSeed finding.findingId evidenceHash (importEventType action))
  let outbox ← inserted (db.outbox.insert? (outboxRow H finding evidenceHash action seed current))
  return (⟨findings, outbox⟩, action)

/-- The transaction of an import; one that fails is rolled back. -/
def importOrReplay (H : Digest) (db : ImportDb F T) (finding : ExternalFinding F)
    (evidenceHash : Text) (current : T) : Except PyError (ImportDb F T × ImportAction) :=
  match db.import? finding.findingId evidenceHash with
  | some _ => .ok (db, .replayed)
  | none => storeAndQueue H db finding evidenceHash current

/-- The audit event of a row that is not delivered. -/
def AuditOutboxRow.undelivered (r : AuditOutboxRow F T) : Option (AuditEvent F) :=
  match r.deliveredAt with
  | none => some r.toAuditEvent
  | some _ => none

variable [PyFloat F]

/-- `record_external_finding_import`: the tables after its transaction, and what it returns. -/
def recordExternalFindingImport (H : Digest) (db : ImportDb F T) (finding : ExternalFinding F)
    (evidenceHash : Text) (current : T) :
    Except PyError (ImportDb F T × ImportAction × Option (AuditEvent F)) :=
  if finding.severity ∉ severities then
    .error (.valueError (lit "External finding severity is invalid."))
  else if !isLowerSha256 evidenceHash then
    .error (.valueError (lit "evidence_hash must be a lowercase SHA-256 digest"))
  else do
    let _ ← dumps compact (.obj finding.details)
    bindTexts [finding.findingId, evidenceHash]
    let (db, action) ← importOrReplay H db finding evidenceHash current
    return (db, action, (db.import? finding.findingId evidenceHash).bind AuditOutboxRow.undelivered)

/-! ### Delivery -/

/-- `SET delivered_at = COALESCE(delivered_at, ?) WHERE event_id = ?`, on one row. -/
def AuditOutboxRow.markDelivered (eventId : Text) (current : T) (r : AuditOutboxRow F T) :
    AuditOutboxRow F T :=
  { r with deliveredAt := if r.eventId = eventId then r.deliveredAt.or (some current) else r.deliveredAt }

omit [PyFloat F] in
theorem clash_markDelivered (eventId : Text) (current : T) (q r : AuditOutboxRow F T) :
    (q.markDelivered eventId current).clash (r.markDelivered eventId current) = q.clash r := rfl

/-- `mark_external_finding_audit_delivered`. -/
def markExternalFindingAuditDelivered (db : ImportDb F T) (eventId : Text) (current : T) :
    Except PyError (ImportDb F T) := do
  bindTexts [eventId]
  if db.outbox.rows.countP (fun r => r.eventId == eventId) = 1 then
    return { db with
      outbox := db.outbox.map (AuditOutboxRow.markDelivered eventId current)
        (clash_markDelivered eventId current) }
  else throw (.valueError (lit "unknown external finding audit event"))

/-! ### What an import does -/

section

variable {H : Digest} {db db' : ImportDb F T} {finding : ExternalFinding F}
  {evidenceHash findingId : Text} {current : T} {action : ImportAction}

omit [PyFloat F] in
theorem AuditOutboxRow.isImport_iff {r : AuditOutboxRow F T} :
    r.isImport findingId evidenceHash = true ↔
      r.findingId = findingId ∧ r.evidenceHash = evidenceHash := by
  rw [isImport, Bool.and_eq_true, beq_iff_eq, beq_iff_eq]

/-- What is stored under the identifier of an imported finding. -/
def storedImport (finding : ExternalFinding F) (evidenceHash : Text) (current : T) :
    Option (ImportedRow F T) → ImportedRow F T
  | none => newImport finding evidenceHash current
  | some r => reassessImport finding evidenceHash current r

omit [PyFloat F] in
theorem storeImport_spec {findings findings' : ImportedFindings F T}
    (h : storeImport findings finding evidenceHash current = .ok (findings', action)) (k : Text) :
    findings'.find? k = if finding.findingId = k then
      some (storedImport finding evidenceHash current (findings.find? finding.findingId))
    else findings.find? k := by
  obtain ⟨-, -, h⟩ := bind_eq_ok.mp h
  cases hfind : findings.find? finding.findingId with
  | none =>
    rw [hfind] at h
    obtain ⟨u, hu, h⟩ := bind_eq_ok.mp h
    obtain ⟨rfl, -⟩ := Prod.mk.inj (Except.ok.inj h)
    cases hinsert : findings.insert? (newImport finding evidenceHash current) with
    | none =>
      rw [hinsert] at hu
      cases hu
    | some v =>
      rw [hinsert] at hu
      obtain rfl := Except.ok.inj hu
      exact Table.find?_insert? hinsert k
  | some r =>
    rw [hfind] at h
    obtain ⟨rfl, -⟩ := Prod.mk.inj (Except.ok.inj h)
    rw [Table.find?_modify]
    by_cases hk : finding.findingId = k
    · subst hk
      rw [hfind, if_pos rfl, Option.map_some, if_pos rfl]
      rfl
    · rw [if_neg hk]
      simp [Ne.symm hk]

/-- What the first import with a digest stores and queues. -/
structure Queued (H : Digest) (db db' : ImportDb F T) (finding : ExternalFinding F)
    (evidenceHash : Text) (current : T) (r : AuditOutboxRow F T) : Prop where
  row : ∃ action seed, r = outboxRow H finding evidenceHash action seed current
  apart : ∀ q ∈ db.outbox.rows, q.clash r = false
  outbox : db'.outbox.rows = db.outbox.rows ++ [r]
  findings : ∀ k, db'.findings.find? k = if finding.findingId = k then
    some (storedImport finding evidenceHash current (db.findings.find? finding.findingId))
    else db.findings.find? k

omit [PyFloat F] in
theorem storeAndQueue_spec
    (h : storeAndQueue H db finding evidenceHash current = .ok (db', action)) :
    ∃ r, Queued H db db' finding evidenceHash current r := by
  obtain ⟨⟨findings, action'⟩, hstore, h⟩ := bind_eq_ok.mp h
  obtain ⟨seed, -, h⟩ := bind_eq_ok.mp h
  obtain ⟨outbox, houtbox, h⟩ := bind_eq_ok.mp h
  obtain ⟨rfl, rfl⟩ := Prod.mk.inj (Except.ok.inj h)
  cases hinsert : db.outbox.insert? (outboxRow H finding evidenceHash action' seed current) with
  | none =>
    rw [hinsert] at houtbox
    cases houtbox
  | some u =>
    rw [hinsert] at houtbox
    obtain rfl := Except.ok.inj houtbox
    obtain ⟨hapart, hrows⟩ := Unique.insert?_eq_some.mp hinsert
    exact ⟨_, ⟨action', seed, rfl⟩, hapart, hrows, storeImport_spec hstore⟩

/-- An import replays a stored one or is the first with its digest. -/
theorem recordExternalFindingImport_cases {event : Option (AuditEvent F)}
    (h : recordExternalFindingImport H db finding evidenceHash current = .ok (db', action, event)) :
    event = (db'.import? finding.findingId evidenceHash).bind AuditOutboxRow.undelivered ∧
      (((∃ r, db.import? finding.findingId evidenceHash = some r) ∧ db' = db) ∨
        (db.import? finding.findingId evidenceHash = none ∧
          ∃ r, Queued H db db' finding evidenceHash current r)) := by
  unfold recordExternalFindingImport at h
  split_ifs at h with hseverity hhash
  · obtain ⟨-, -, h⟩ := bind_eq_ok.mp h
    obtain ⟨-, -, h⟩ := bind_eq_ok.mp h
    obtain ⟨⟨db'', action'⟩, hstored, h⟩ := bind_eq_ok.mp h
    obtain ⟨rfl, hanswer⟩ := Prod.mk.inj (Except.ok.inj h)
    obtain ⟨-, rfl⟩ := Prod.mk.inj hanswer
    refine ⟨rfl, ?_⟩
    unfold importOrReplay at hstored
    cases hfound : db.import? finding.findingId evidenceHash with
    | some r =>
      rw [hfound] at hstored
      obtain ⟨rfl, -⟩ := Prod.mk.inj (Except.ok.inj hstored)
      exact .inl ⟨⟨r, rfl⟩, rfl⟩
    | none =>
      rw [hfound] at hstored
      exact .inr ⟨rfl, storeAndQueue_spec hstored⟩

omit [PyFloat F] in
theorem import?_eq_none : db.import? findingId evidenceHash = none ↔
    ∀ r ∈ db.outbox.rows, ¬ (r.findingId = findingId ∧ r.evidenceHash = evidenceHash) := by
  simp only [ImportDb.import?, List.find?_eq_none, AuditOutboxRow.isImport_iff]

omit [PyFloat F] in
/-- An answered event is that of a row. -/
theorem exists_row_of_undelivered {event : AuditEvent F}
    (h : (db.import? findingId evidenceHash).bind AuditOutboxRow.undelivered = some event) :
    ∃ r ∈ db.outbox.rows, r.toAuditEvent = event := by
  obtain ⟨r, hr, h⟩ := Option.bind_eq_some_iff.mp h
  refine ⟨r, List.mem_of_find?_eq_some hr, ?_⟩
  unfold AuditOutboxRow.undelivered at h
  split at h
  · exact Option.some.inj h
  · cases h

end

end SentinelGRC.Connectors
