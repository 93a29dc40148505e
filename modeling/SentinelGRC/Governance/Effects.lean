import SentinelGRC.Governance.Core
import SentinelGRC.Python.JsonText

/-!
What a phase can do to the database: nothing, or one of four commits, each of them one
row of a finding, at most one record about it, and one event with its two deliveries.
Every invariant of the database is derived from this list.
-/

namespace SentinelGRC.Governance

open Python Json Store Transition

variable {F : Type}

/-! ### Statements -/

theorem bindTexts_eq_ok {texts : List Text} {u : Unit} :
    bindTexts texts = .ok u ↔ ∀ t ∈ texts, Scalar t := by
  unfold bindTexts
  split_ifs with h
  · exact ⟨fun _ => h, fun _ => rfl⟩
  · constructor
    · intro he
      cases he
    · intro hall
      exact absurd hall h

theorem inserted_eq_ok {α : Type} {table : Option α} {a : α} :
    inserted table = .ok a ↔ table = some a := by
  cases table <;> simp [inserted]

/-! ### Events -/

/-- The hashed part of a stored event, for a value of its details. -/
def Event.body (e : Event F) (details : Json F) : Fields F :=
  eventBody e.findingId e.eventType e.actorId e.actorRole e.authMethod e.occurredAt details
    e.previousHash

/-- An outbox row that waits to deliver a payload for an event. -/
structure OutboxRow.Queues (o : OutboxRow F) (e : Event F) (payloadJson : Text) : Prop where
  outboxId : ∃ id : Uuid, o.outboxId = id.hex
  eventId : o.eventId = e.eventId
  findingId : o.findingId = e.findingId
  eventSequence : o.eventSequence = e.eventSequence
  topic : o.topic = lit "governance.event.v1"
  payloadJson : o.payloadJson = payloadJson

/-- An export row that waits to archive a payload for an event. -/
structure AuditExport.Queues (x : AuditExport F) (e : Event F) (payloadJson : Text) : Prop where
  eventId : x.eventId = e.eventId
  findingId : x.findingId = e.findingId
  eventSequence : x.eventSequence = e.eventSequence
  payloadJson : x.payloadJson = payloadJson

variable [PyFloat F]

/-- The rows that `_event` adds after the events of a finding. -/
structure EventRows (H : Digest) (events : List (Event F)) (k : Text) (type : EventType)
    (actor : ActorContext) (details : Fields F) (now : F) (e : Event F) (o : OutboxRow F)
    (x : AuditExport F) : Prop where
  eventId : ∃ id : Uuid, e.eventId = id.hex
  findingId : e.findingId = k
  eventSequence : e.eventSequence = nextSequence events
  eventType : e.eventType = type
  actorId : e.actorId = actor.actorId
  actorRole : e.actorRole = actor.role
  authMethod : e.authMethod = actor.authMethod
  occurredAt : e.occurredAt = now
  previousHash : e.previousHash = chainedHash events
  detailsJson : dumps spacedStyle (.obj details) = .ok e.detailsJson
  eventHash : chainHash H e.previousHash (e.body (.obj details)) = .ok e.eventHash
  payload : ∃ payloadJson, o.Queues e payloadJson ∧ x.Queues e payloadJson ∧
    dumps compact (.obj (eventPayload (e.body (.obj details)) e.eventId e.eventSequence e.eventHash)) =
      .ok payloadJson
  undelivered : o.deliveredAt = none ∧ o.deadAt = none ∧ o.lockToken = none
  unarchived : x.archivedAt = none ∧ x.deadAt = none ∧ x.lockToken = none
  scalars : Scalar k ∧ Scalar actor.actorId ∧ Scalar actor.authMethod

/-- A database is another one with the rows of one event added. -/
structure Logged (H : Digest) (db db' : Db F) (k : Text) (type : EventType) (actor : ActorContext)
    (details : Fields F) (now : F) (e : Event F) : Prop where
  rows : ∃ o x, EventRows H (db.eventsOf k) k type actor details now e o x ∧
    db'.governanceOutbox.rows = db.governanceOutbox.rows ++ [o] ∧
    db'.auditExports.rows = db.auditExports.rows ++ [x]
  events : db'.governanceEvents.rows = db.governanceEvents.rows ++ [e]

/-- `_event` adds the rows of one event and changes nothing else. -/
theorem event_eq_ok {H : Digest} {db db' : Db F} {findingId : Text} {eventType : EventType}
    {actor : ActorContext} {details : Fields F} {now : F} {stamp : Stamp F}
    (h : event H db findingId eventType actor details now stamp = .ok db') :
    (∃ e, Logged H db db' findingId eventType actor details now e) ∧
      db' = { db with
        governanceEvents := db'.governanceEvents
        governanceOutbox := db'.governanceOutbox
        auditExports := db'.auditExports } := by
  unfold event at h
  obtain ⟨eventHash, hhash, h⟩ := bind_eq_ok.mp h
  obtain ⟨detailsJson, hdetails, h⟩ := bind_eq_ok.mp h
  obtain ⟨u, hbind, h⟩ := bind_eq_ok.mp h
  obtain ⟨events, hevents, h⟩ := bind_eq_ok.mp h
  obtain ⟨payloadJson, hpayload, h⟩ := bind_eq_ok.mp h
  obtain ⟨outbox, houtbox, h⟩ := bind_eq_ok.mp h
  obtain ⟨exports, hexports, h⟩ := bind_eq_ok.mp h
  cases h
  have hscalar := bindTexts_eq_ok.mp hbind
  obtain ⟨-, hevents⟩ := Unique.insert?_eq_some.mp (inserted_eq_ok.mp hevents)
  obtain ⟨-, houtbox⟩ := Unique.insert?_eq_some.mp (inserted_eq_ok.mp houtbox)
  obtain ⟨-, hexports⟩ := Unique.insert?_eq_some.mp (inserted_eq_ok.mp hexports)
  refine ⟨⟨_, ⟨_, _, ?_, houtbox, hexports⟩, hevents⟩, rfl⟩
  exact
    { eventId := ⟨stamp.eventId, rfl⟩
      findingId := rfl
      eventSequence := rfl
      eventType := rfl
      actorId := rfl
      actorRole := rfl
      authMethod := rfl
      occurredAt := rfl
      previousHash := rfl
      detailsJson := hdetails
      eventHash := hhash
      payload := ⟨payloadJson, ⟨⟨stamp.outboxId, rfl⟩, rfl, rfl, rfl, rfl, rfl⟩,
        ⟨rfl, rfl, rfl, rfl⟩, hpayload⟩
      undelivered := ⟨rfl, rfl, rfl⟩
      unarchived := ⟨rfl, rfl, rfl⟩
      scalars := ⟨hscalar _ (by simp), hscalar _ (by simp), hscalar _ (by simp)⟩ }

/-! ### Workflows -/

/-- The row of `action_items` that a workflow inserts. -/
def Workflow.action? : Workflow → Option ActionItem
  | .actionItem actionId findingId (some owner) implementer dueDate =>
    some ⟨actionId, findingId, owner, implementer, dueDate, lit "in_progress"⟩
  | _ => none

/-- The row of `verification_records` that a workflow inserts. -/
def Workflow.verification? : Workflow → Option VerificationRecord
  | .verificationRecord row => some row
  | _ => none

/-- The free texts that a workflow binds. -/
def Workflow.texts : Workflow → List Text
  | .riskRecord _ => []
  | .riskTreatment row => [row.reason]
  | .approvalRecord row => [row.reason]
  | .actionItem _ _ _ implementer _ => [implementer]
  | .verificationRecord row => [row.notes]
  | .closureRecord row => [row.reason]

/-- The records about findings that a transaction adds. -/
structure Records (db db' : Db F) (action : Option ActionItem) (evidence : Option (Evidence F))
    (verification : Option VerificationRecord) : Prop where
  actionItems : db'.actionItems.rows = db.actionItems.rows ++ action.toList
  governanceEvidence : db'.governanceEvidence.rows = db.governanceEvidence.rows ++ evidence.toList
  verificationRecords :
    db'.verificationRecords.rows = db.verificationRecords.rows ++ verification.toList

omit [PyFloat F] in
theorem records_of_eq {db db' : Db F} (h₁ : db'.actionItems = db.actionItems)
    (h₂ : db'.governanceEvidence = db.governanceEvidence)
    (h₃ : db'.verificationRecords = db.verificationRecords) : Records db db' none none none := by
  refine ⟨?_, ?_, ?_⟩
  · rw [h₁, Option.toList_none, List.append_nil]
  · rw [h₂, Option.toList_none, List.append_nil]
  · rw [h₃, Option.toList_none, List.append_nil]

/-- The tables that no workflow touches. -/
structure SameLog (db db' : Db F) : Prop where
  findings : db'.findings = db.findings
  governanceEvents : db'.governanceEvents = db.governanceEvents
  governanceOutbox : db'.governanceOutbox = db.governanceOutbox
  auditExports : db'.auditExports = db.auditExports

omit [PyFloat F] in
theorem execute_eq_ok {w : Workflow} {db db' : Db F} (h : w.execute db = .ok db') :
    Records db db' w.action? none w.verification? ∧ SameLog db db' ∧ ∀ t ∈ w.texts, Scalar t := by
  cases w with
  | riskRecord row =>
    obtain ⟨u, hbind, h⟩ := bind_eq_ok.mp h
    obtain ⟨records, hins, h⟩ := bind_eq_ok.mp h
    cases h
    exact ⟨records_of_eq rfl rfl rfl, ⟨rfl, rfl, rfl, rfl⟩, by simp [Workflow.texts]⟩
  | riskTreatment row =>
    obtain ⟨u, hbind, h⟩ := bind_eq_ok.mp h
    obtain ⟨records, hins, h⟩ := bind_eq_ok.mp h
    cases h
    have hscalar := bindTexts_eq_ok.mp hbind
    exact ⟨records_of_eq rfl rfl rfl, ⟨rfl, rfl, rfl, rfl⟩, by simpa [Workflow.texts] using hscalar _ (by simp)⟩
  | approvalRecord row =>
    obtain ⟨u, hbind, h⟩ := bind_eq_ok.mp h
    obtain ⟨records, hins, h⟩ := bind_eq_ok.mp h
    cases h
    have hscalar := bindTexts_eq_ok.mp hbind
    exact ⟨records_of_eq rfl rfl rfl, ⟨rfl, rfl, rfl, rfl⟩, by simpa [Workflow.texts] using hscalar _ (by simp)⟩
  | actionItem actionId findingId owner implementer dueDate =>
    obtain ⟨u, hbind, h⟩ := bind_eq_ok.mp h
    have hscalar := bindTexts_eq_ok.mp hbind
    cases owner with
    | none => cases h
    | some owner =>
      obtain ⟨records, hins, h⟩ := bind_eq_ok.mp h
      cases h
      obtain ⟨-, hrows⟩ := Table.insert?_eq_some.mp (inserted_eq_ok.mp hins)
      refine ⟨⟨hrows, by simp, by simp [Workflow.verification?]⟩, ⟨rfl, rfl, rfl, rfl⟩, ?_⟩
      simpa [Workflow.texts] using hscalar implementer (by simp)
  | verificationRecord row =>
    obtain ⟨u, hbind, h⟩ := bind_eq_ok.mp h
    obtain ⟨records, hins, h⟩ := bind_eq_ok.mp h
    cases h
    have hscalar := bindTexts_eq_ok.mp hbind
    obtain ⟨-, hrows⟩ := Table.insert?_eq_some.mp (inserted_eq_ok.mp hins)
    refine ⟨⟨by simp [Workflow.action?], by simp, hrows⟩, ⟨rfl, rfl, rfl, rfl⟩, ?_⟩
    simpa [Workflow.texts] using hscalar row.notes (by simp)
  | closureRecord row =>
    obtain ⟨u, hbind, h⟩ := bind_eq_ok.mp h
    obtain ⟨records, hins, h⟩ := bind_eq_ok.mp h
    cases h
    have hscalar := bindTexts_eq_ok.mp hbind
    exact ⟨records_of_eq rfl rfl rfl, ⟨rfl, rfl, rfl, rfl⟩, by simpa [Workflow.texts] using hscalar _ (by simp)⟩

/-! ### Transactions -/

theorem createFinding_eq_ok {H : Digest} {db db' : Db F} {actor : ActorContext}
    {args : FindingArgs} {stamp : Stamp F} (h : createFinding H db actor args stamp = .ok db') :
    db.findings.find? args.findingId.text = none ∧
      (∀ k, db'.findings.find? k =
        if args.findingId.text = k then some (args.row stamp) else db.findings.find? k) ∧
      Records db db' none none none ∧
      (∃ e, Logged H db db' args.findingId.text .findingCreated actor args.details stamp.now e) ∧
      Scalar args.controlId.text ∧ Scalar args.assetId.text := by
  have hattempt : (do
      bindTexts [args.findingId.text, args.controlId.text, args.assetId.text, args.title.text,
        args.riskOwner.text]
      let findings ← inserted (db.findings.insert? (args.row stamp))
      event H { db with findings } args.findingId.text .findingCreated actor args.details stamp.now
        stamp) = .ok db' := by
    unfold createFinding at h
    simp only at h
    split at h
    · cases h
    · exact h
  obtain ⟨u, hbind, hattempt⟩ := bind_eq_ok.mp hattempt
  obtain ⟨findings, hins, hevent⟩ := bind_eq_ok.mp hattempt
  have hscalar := bindTexts_eq_ok.mp hbind
  have hins := inserted_eq_ok.mp hins
  obtain ⟨⟨e, he⟩, hdb⟩ := event_eq_ok hevent
  have hfind : db'.findings = findings := by rw [hdb]
  refine ⟨(Table.insert?_eq_some.mp hins).1, ?_, ?_, ⟨e, he.rows, he.events⟩,
    hscalar _ (by simp), hscalar _ (by simp)⟩
  · intro k
    rw [hfind, Table.find?_insert? hins]
    rfl
  · exact records_of_eq (by rw [hdb]) (by rw [hdb]) (by rw [hdb])

theorem reassessFinding_eq_ok {H : Digest} {db db' : Db F} {actor : ActorContext}
    {args : FindingArgs} {stamp : Stamp F} (h : reassessFinding H db actor args stamp = .ok db') :
    (∃ row, db.findings.find? args.findingId.text = some row ∧
      row.controlId = args.controlId.text ∧ row.assetId = args.assetId.text) ∧
      (∀ k, db'.findings.find? k = (db.findings.find? k).map fun r =>
        if k = args.findingId.text then args.apply stamp.now r else r) ∧
      Records db db' none none none ∧
      ∃ e, Logged H db db' args.findingId.text .findingReassessed actor args.details stamp.now e := by
  unfold reassessFinding at h
  obtain ⟨u, hbind, h⟩ := bind_eq_ok.mp h
  cases hrow : db.findings.find? args.findingId.text with
  | none =>
    rw [hrow] at h
    cases h
  | some row =>
    rw [hrow] at h
    simp only at h
    by_cases hid : row.controlId ≠ args.controlId.text ∨ row.assetId ≠ args.assetId.text
    · rw [if_pos hid] at h
      cases h
    · rw [if_neg hid] at h
      rw [not_or, not_not, not_not] at hid
      obtain ⟨u, hbind, hevent⟩ := bind_eq_ok.mp h
      obtain ⟨⟨e, he⟩, hdb⟩ := event_eq_ok hevent
      have hfind : db'.findings = db.findings.modify args.findingId.text (args.apply stamp.now)
          (args.findingId_apply stamp) := by rw [hdb]
      refine ⟨⟨row, rfl, hid.1, hid.2⟩, ?_, ?_, ⟨e, he.rows, he.events⟩⟩
      · intro k
        rw [hfind, Table.find?_modify]
      · exact records_of_eq (by rw [hdb]) (by rw [hdb]) (by rw [hdb])

theorem mutate_eq_ok {H : Digest} {db db' : Db F} {actor : ActorContext} {m : Mutation F}
    {stamp : Stamp F} (h : mutate H db actor m stamp = .ok db') :
    (∃ row, db.findings.find? m.findingId = some row ∧ row.status ∈ m.allowedStatuses) ∧
      (∀ k, db'.findings.find? k = (db.findings.find? k).map fun r =>
        if k = m.findingId then m.apply stamp.now r else r) ∧
      Records db db' m.workflow.action? none m.workflow.verification? ∧
      (∃ e, Logged H db db' m.findingId m.eventType actor m.details stamp.now e) ∧
      (∀ t ∈ m.updates.texts, Scalar t) ∧ ∀ t ∈ m.workflow.texts, Scalar t := by
  unfold mutate at h
  obtain ⟨u, hbind, h⟩ := bind_eq_ok.mp h
  cases hrow : db.findings.find? m.findingId with
  | none =>
    rw [hrow] at h
    cases h
  | some row =>
    rw [hrow] at h
    simp only at h
    by_cases hs : row.status ∉ m.allowedStatuses
    · rw [if_pos hs] at h
      cases h
    · rw [if_neg hs] at h
      rw [not_not] at hs
      obtain ⟨u, hupdates, h⟩ := bind_eq_ok.mp h
      obtain ⟨mid, hevent, hwork⟩ := bind_eq_ok.mp h
      obtain ⟨⟨e, he⟩, hmid⟩ := event_eq_ok hevent
      obtain ⟨hrecords, hsame, htexts⟩ := execute_eq_ok hwork
      have hfind : db'.findings = db.findings.modify m.findingId (m.apply stamp.now)
          (m.findingId_stamped stamp) := by rw [hsame.findings, hmid]
      refine ⟨⟨row, rfl, hs⟩, ?_, ?_, ⟨e, ?_, ?_⟩, bindTexts_eq_ok.mp hupdates, htexts⟩
      · intro k
        rw [hfind, Table.find?_modify]
      · refine ⟨?_, ?_, ?_⟩
        · rw [hrecords.actionItems, hmid]
        · rw [hrecords.governanceEvidence, hmid]
        · rw [hrecords.verificationRecords, hmid]
      · rw [hsame.governanceOutbox, hsame.auditExports]
        exact he.rows
      · rw [hsame.governanceEvents]
        exact he.events

/-- `_commit_evidence` changes nothing for evidence that is already there. -/
theorem commitEvidence_eq_ok {H : Digest} {db db' : Db F} {k : Text} {actor : ActorContext}
    {args : EvidenceArgs} {evidenceId : Text} {stored : EvidenceObject} {stamp : Stamp F}
    (h : commitEvidence H db k actor args evidenceId stored stamp = .ok db') : db' = db ∨
    ((∃ row, db.findings.find? k = some row ∧ row.status = .inProgress) ∧
      (∀ j, db'.findings.find? j = (db.findings.find? j).map fun r =>
        if j = k then submitted actor.actorId stamp.now r else r) ∧
      Records db db' none (some (args.row k actor evidenceId stored stamp.now)) none ∧
      (∃ e, Logged H db db' k .evidenceSubmitted actor (args.details evidenceId stored)
        stamp.now e) ∧
      Scalar args.source.text ∧ Scalar stored.sha256 ∧ Scalar stored.objectKey) := by
  unfold commitEvidence at h
  obtain ⟨u, hbind, h⟩ := bind_eq_ok.mp h
  cases hrow : db.findings.find? k with
  | none =>
    rw [hrow] at h
    cases h
  | some row =>
    rw [hrow] at h
    simp only at h
    by_cases hs : row.status ≠ .inProgress
    · rw [if_pos hs] at h
      obtain ⟨u, hbind, h⟩ := bind_eq_ok.mp h
      split_ifs at h
      · cases h
        exact .inl rfl
      · cases h
    · rw [if_neg hs] at h
      rw [not_not] at hs
      obtain ⟨u, hbind, h⟩ := bind_eq_ok.mp h
      obtain ⟨evidence, hins, hevent⟩ := bind_eq_ok.mp h
      have hscalar := bindTexts_eq_ok.mp hbind
      obtain ⟨-, hrows⟩ := Table.insert?_eq_some.mp (inserted_eq_ok.mp hins)
      obtain ⟨⟨e, he⟩, hdb⟩ := event_eq_ok hevent
      have hfind : db'.findings = db.findings.modify k (submitted actor.actorId stamp.now)
          (findingId_submitted actor stamp) := by rw [hdb]
      refine .inr ⟨⟨row, rfl, hs⟩, ?_, ?_, ⟨e, he.rows, he.events⟩, hscalar _ (by simp),
        hscalar _ (by simp), hscalar _ (by simp)⟩
      · intro j
        rw [hfind, Table.find?_modify]
      · refine ⟨?_, ?_, ?_⟩
        · rw [hdb, Option.toList_none, List.append_nil]
        · rw [hdb, hrows]
          rfl
        · rw [hdb, Option.toList_none, List.append_nil]

/-! ### Details -/

/-- Details that JSON text gives back as they were. -/
structure Readable (details : Fields F) : Prop where
  scalars : Scalars (.obj details)
  distinct : Distinct (.obj details)

omit [PyFloat F] in
theorem readable_of {details : Fields F} (keys : List Text) (hkeys : details.map Prod.fst = keys)
    (hnodup : keys.Nodup) (hdetails : ∀ f ∈ details, Scalar f.1 ∧ Scalars f.2 ∧ Distinct f.2) : Readable details where
  scalars := by
    have hscalar {t : Text} (ht : Scalar t) : (t.all fun c => !isSurrogate c) = true := by
      rw [List.all_eq_true]
      intro c hc
      rw [ht c hc]
      rfl
    rw [Scalars, all, charsNode, allFields_eq_all, Bool.and_eq_true, List.all_eq_true,
      List.all_eq_true]
    refine ⟨fun f hf => hscalar (hdetails f hf).1, fun f hf => ?_⟩
    rw [allField_eq]
    exact (hdetails f hf).2.1
  distinct := distinct_obj.mpr ⟨hkeys ▸ hnodup, fun f hf => (hdetails f hf).2.2⟩

omit [PyFloat F] in
theorem readable_str {key : String} {t : Text} (ht : Scalar t) :
    Scalar (lit key) ∧ Scalars (.str t : Json F) ∧ Distinct (.str t : Json F) := by
  refine ⟨scalar_lit key, ?_, rfl⟩
  rw [Scalars, all, charsNode, List.all_eq_true]
  intro c hc
  rw [ht c hc]
  rfl

omit [PyFloat F] in
theorem Readable.scalar_str {details : Fields F} (h : Readable details) {key t : Text}
    (hmem : (key, .str t) ∈ details) : Scalar t := by
  have hscalars := h.scalars
  rw [Scalars, all, charsNode, allFields_eq_all, Bool.and_eq_true, List.all_eq_true,
    List.all_eq_true] at hscalars
  have hfield := hscalars.2 _ hmem
  rw [allField_eq, all, charsNode, List.all_eq_true] at hfield
  intro c hc
  simpa using hfield c hc

theorem Severity.scalar_text (s : Severity) : Scalar s.text := by cases s <;> exact scalar_lit _

theorem Treatment.scalar_text (t : Treatment) : Scalar t.text := by cases t <;> exact scalar_lit _

theorem Decision.scalar_text (d : Decision) : Scalar d.text := by cases d <;> exact scalar_lit _

theorem scalar_evidenceId (id : Uuid) : Scalar (evidenceId id) := by
  refine scalar_append.mpr ⟨scalar_lit _, ?_⟩
  intro c hc
  obtain ⟨d, hd, rfl⟩ := List.mem_map.mp hc
  have hhex := id.isLowerHex d (List.mem_of_mem_take hd)
  simp only [isLowerHex, Bool.or_eq_true, Bool.and_eq_true, decide_eq_true_eq] at hhex
  rw [isSurrogate_eq_false]
  split_ifs
  · simp only
    omega
  · omega

omit [PyFloat F] in
/-- The details of a mutation whose texts could be bound. -/
theorem Change.readable (change : Change F) (actor : ActorContext) (id : Uuid)
    (hupdates : ∀ t ∈ (change.mutation actor id).updates.texts, Scalar t)
    (hworkflow : ∀ t ∈ (change.mutation actor id).workflow.texts, Scalar t) :
    Readable (change.mutation actor id).details := by
  cases change with
  | assess likelihood impact finding =>
    refine readable_of [lit "likelihood", lit "impact"] rfl (by decide) ?_
    simp only [mutation, List.mem_cons, List.not_mem_nil, or_false, forall_eq_or_imp, forall_eq]
    exact ⟨readable_str likelihood.scalar_text, readable_str impact.scalar_text⟩
  | propose findingId treatmentType reason actionOwner dueDate =>
    refine readable_of [lit "treatment_type", lit "reason", lit "action_owner"]
      rfl (by decide) ?_
    simp only [mutation, List.mem_cons, List.not_mem_nil, or_false, forall_eq_or_imp, forall_eq]
    exact ⟨readable_str treatmentType.scalar_text, readable_str (hupdates _ (by simp [mutation, Updates.texts])),
      readable_str (hupdates _ (by simp [mutation, Updates.texts]))⟩
  | approve decision reason finding =>
    refine readable_of [lit "decision", lit "reason"] rfl (by decide) ?_
    simp only [mutation, List.mem_cons, List.not_mem_nil, or_false, forall_eq_or_imp, forall_eq]
    exact ⟨readable_str decision.scalar_text,
      readable_str (hworkflow _ (by simp [mutation, Workflow.texts]))⟩
  | start implementer finding =>
    refine readable_of [lit "implementer"] rfl (by decide) ?_
    simp only [mutation, List.mem_cons, List.not_mem_nil, or_false, forall_eq]
    exact readable_str (hupdates _ (by simp [mutation, Updates.texts]))
  | verify passed notes finding =>
    refine readable_of [lit "passed", lit "notes"] rfl (by decide) ?_
    simp only [mutation, List.mem_cons, List.not_mem_nil, or_false, forall_eq_or_imp, forall_eq]
    exact ⟨⟨scalar_lit _, rfl, rfl⟩, readable_str (hworkflow _ (by simp [mutation, Workflow.texts]))⟩
  | close reason finding =>
    refine readable_of [lit "reason"] rfl (by decide) ?_
    simp only [mutation, List.mem_cons, List.not_mem_nil, or_false, forall_eq]
    exact readable_str (hworkflow _ (by simp [mutation, Workflow.texts]))

omit [PyFloat F] in
theorem FindingArgs.readable (args : FindingArgs) (hcontrol : Scalar args.controlId.text)
    (hasset : Scalar args.assetId.text) : Readable (F := F) args.details := by
  refine readable_of [lit "control_id", lit "asset_id", lit "severity"] rfl (by decide) ?_
  simp only [details, List.mem_cons, List.not_mem_nil, or_false, forall_eq_or_imp, forall_eq]
  exact ⟨readable_str hcontrol, readable_str hasset, readable_str args.severity.scalar_text⟩

omit [PyFloat F] in
theorem EvidenceArgs.readable (args : EvidenceArgs) (id : Uuid) (stored : EvidenceObject)
    (hsource : Scalar args.source.text) (hsha : Scalar stored.sha256)
    (hkey : Scalar stored.objectKey) : Readable (F := F) (args.details (evidenceId id) stored) := by
  refine readable_of [lit "evidence_id", lit "source", lit "sha256", lit "object_key", lit "size_bytes"]
      rfl (by decide) ?_
  simp only [details, List.mem_cons, List.not_mem_nil, or_false, forall_eq_or_imp, forall_eq]
  exact ⟨readable_str (scalar_evidenceId id), readable_str hsource, readable_str hsha,
    readable_str hkey, scalar_lit _, rfl, rfl⟩

/-! ### Effects -/

/-- What one phase of an operation does to the database. -/
inductive Effect (H : Digest) (db : Db F) (p : Pending F) (stamp : Stamp F) : Db F → Prop
  | none : Effect H db p stamp db
  | created {db' : Db F} (args : FindingArgs) (upsert : Option FindingArgs) (e : Event F)
      (phase : p.phase = .create args upsert)
      (fresh : db.findings.find? args.findingId.text = .none)
      (findings : ∀ k, db'.findings.find? k =
        if args.findingId.text = k then some (args.row stamp) else db.findings.find? k)
      (records : Records db db' .none .none .none)
      (logged : Logged H db db' args.findingId.text .findingCreated p.actor args.details stamp.now e)
      (scalars : Scalar args.controlId.text ∧ Scalar args.assetId.text) : Effect H db p stamp db'
  | reassessed {db' : Db F} (args : FindingArgs) (row : Finding F) (e : Event F)
      (phase : p.phase = .reassess args)
      (found : db.findings.find? args.findingId.text = some row)
      (identity : row.controlId = args.controlId.text ∧ row.assetId = args.assetId.text)
      (findings : ∀ k, db'.findings.find? k = (db.findings.find? k).map fun r =>
        if k = args.findingId.text then args.apply stamp.now r else r)
      (records : Records db db' .none .none .none)
      (logged : Logged H db db' args.findingId.text .findingReassessed p.actor args.details stamp.now e) :
      Effect H db p stamp db'
  | mutated {db' : Db F} (change : Change F) (m : Mutation F) (row : Finding F) (e : Event F)
      (phase : p.phase = .mutate change) (mutation : m = change.mutation p.actor p.recordId)
      (found : db.findings.find? m.findingId = some row) (status : row.status ∈ m.allowedStatuses)
      (findings : ∀ k, db'.findings.find? k = (db.findings.find? k).map fun r =>
        if k = m.findingId then m.apply stamp.now r else r)
      (records : Records db db' m.workflow.action? .none m.workflow.verification?)
      (logged : Logged H db db' m.findingId m.eventType p.actor m.details stamp.now e)
      (readable : Readable m.details) : Effect H db p stamp db'
  | submitted {db' : Db F} (args : EvidenceArgs) (stored : EvidenceObject) (finding : Finding F)
      (row : Finding F) (e : Event F) (phase : p.phase = .commitEvidence args stored finding)
      (found : db.findings.find? finding.findingId = some row) (status : row.status = .inProgress)
      (findings : ∀ k, db'.findings.find? k = (db.findings.find? k).map fun r =>
        if k = finding.findingId then submitted p.actor.actorId stamp.now r else r)
      (records : Records db db' .none
        (some (args.row finding.findingId p.actor (evidenceId p.recordId) stored stamp.now)) .none)
      (logged : Logged H db db' finding.findingId .evidenceSubmitted p.actor
        (args.details (evidenceId p.recordId) stored) stamp.now e)
      (readable : Readable (F := F) (args.details (evidenceId p.recordId) stored)) :
      Effect H db p stamp db'

/-- A phase changes nothing or logs one event. -/
theorem Effect.commits {H : Digest} {db db' : Db F} {p : Pending F} {stamp : Stamp F}
    (h : Effect H db p stamp db') :
    db' = db ∨ ∃ k type details e, Logged H db db' k type p.actor details stamp.now e := by
  cases h with
  | none => exact .inl rfl
  | created args upsert e phase fresh findings records logged scalars =>
    exact .inr ⟨_, _, _, e, logged⟩
  | reassessed args row e phase found identity findings records logged =>
    exact .inr ⟨_, _, _, e, logged⟩
  | mutated change m row e phase mutation found status findings records logged readable =>
    exact .inr ⟨_, _, _, e, logged⟩
  | submitted args stored finding row e phase found status findings records logged readable =>
    exact .inr ⟨_, _, _, e, logged⟩

/-- What one phase does to the row under a key. -/
inductive RowEffect (p : Pending F) (stamp : Stamp F) (k : Text) :
    Option (Finding F) → Finding F → Prop
  | same (row : Finding F) : RowEffect p stamp k (some row) row
  | created (args : FindingArgs) (upsert : Option FindingArgs)
      (phase : p.phase = .create args upsert) (key : args.findingId.text = k) :
      RowEffect p stamp k .none (args.row stamp)
  | reassessed (args : FindingArgs) (row : Finding F) (phase : p.phase = .reassess args)
      (key : args.findingId.text = k) : RowEffect p stamp k (some row) (args.apply stamp.now row)
  | mutated (change : Change F) (row : Finding F) (phase : p.phase = .mutate change)
      (key : (change.mutation p.actor p.recordId).findingId = k)
      (status : row.status ∈ (change.mutation p.actor p.recordId).allowedStatuses) :
      RowEffect p stamp k (some row) ((change.mutation p.actor p.recordId).apply stamp.now row)
  | submitted (args : EvidenceArgs) (stored : EvidenceObject) (finding row : Finding F)
      (phase : p.phase = .commitEvidence args stored finding) (key : finding.findingId = k)
      (status : row.status = .inProgress) :
      RowEffect p stamp k (some row) (submitted p.actor.actorId stamp.now row)

theorem Effect.row {H : Digest} {db db' : Db F} {p : Pending F} {stamp : Stamp F}
    (h : Effect H db p stamp db') {k : Text} {row' : Finding F}
    (hrow : db'.findings.find? k = some row') : RowEffect p stamp k (db.findings.find? k) row' := by
  have hmodify {j : Text} {f : Finding F → Finding F}
      (heq : db'.findings.find? k = (db.findings.find? k).map fun r => if k = j then f r else r) :
      ∃ row, db.findings.find? k = some row ∧ row' = if k = j then f row else row := by
    obtain ⟨row, hfind, rfl⟩ := Option.map_eq_some_iff.mp (heq.symm.trans hrow)
    exact ⟨row, hfind, rfl⟩
  cases h with
  | none =>
    rw [hrow]
    exact .same row'
  | created args upsert e phase fresh findings records logged scalars =>
    rw [findings] at hrow
    split_ifs at hrow with hk
    · cases hrow
      subst hk
      rw [fresh]
      exact .created args upsert phase rfl
    · rw [hrow]
      exact .same row'
  | reassessed args row e phase found identity findings records logged =>
    obtain ⟨q, hq, rfl⟩ := hmodify (findings k)
    rw [hq]
    split_ifs with hk
    · exact .reassessed args q phase hk.symm
    · exact .same q
  | mutated change m row e phase mutation found status findings records logged readable =>
    obtain ⟨q, hq, rfl⟩ := hmodify (findings k)
    rw [hq]
    subst mutation
    split_ifs with hk
    · obtain rfl : q = row := by
        rw [hk, found] at hq
        exact (Option.some.inj hq).symm
      exact .mutated change q phase hk.symm status
    · exact .same q
  | submitted args stored finding row e phase found status findings records logged readable =>
    obtain ⟨q, hq, rfl⟩ := hmodify (findings k)
    rw [hq]
    split_ifs with hk
    · obtain rfl : q = row := by
        rw [hk, found] at hq
        exact (Option.some.inj hq).symm
      exact .submitted args stored finding q phase hk.symm status
    · exact .same q

/-- No phase removes a row. -/
theorem Effect.row_kept {H : Digest} {db db' : Db F} {p : Pending F} {stamp : Stamp F}
    (h : Effect H db p stamp db') {k : Text} {row : Finding F}
    (hrow : db.findings.find? k = some row) :
    ∃ row', db'.findings.find? k = some row' ∧ RowEffect p stamp k (some row) row' := by
  have hsome : ∃ row', db'.findings.find? k = some row' := by
    cases h with
    | none => exact ⟨row, hrow⟩
    | created args upsert e phase fresh findings records logged scalars =>
      rw [findings]
      split_ifs with hk
      · exact ⟨_, rfl⟩
      · exact ⟨row, hrow⟩
    | reassessed args q e phase found identity findings records logged =>
      rw [findings, hrow]
      exact ⟨_, rfl⟩
    | mutated change m q e phase mutation found status findings records logged readable =>
      rw [findings, hrow]
      exact ⟨_, rfl⟩
    | submitted args stored finding q e phase found status findings records logged readable =>
      rw [findings, hrow]
      exact ⟨_, rfl⟩
  obtain ⟨row', hrow'⟩ := hsome
  exact ⟨row', hrow', hrow ▸ h.row hrow'⟩

/-- The records that a phase adds. -/
theorem Effect.records {H : Digest} {db db' : Db F} {p : Pending F} {stamp : Stamp F}
    (h : Effect H db p stamp db') : ∃ action evidence verification,
      Records db db' action evidence verification ∧
      (∀ a ∈ action, ∃ implementer finding row, p.phase = .mutate (.start implementer finding) ∧
        db.findings.find? finding.findingId = some row ∧ row.status = .approved ∧
        db'.findings.find? finding.findingId =
          some (((Change.start implementer finding).mutation p.actor p.recordId).apply stamp.now row) ∧
        a.findingId = finding.findingId ∧ a.implementer = implementer.text) ∧
      ∀ v ∈ verification, ∃ passed notes finding row,
        p.phase = .mutate (.verify passed notes finding) ∧
        db.findings.find? finding.findingId = some row ∧ row.status = .pendingVerification ∧
        v.findingId = finding.findingId ∧ v.verifierId = p.actor.actorId := by
  have hnothing {α : Type} {P : α → Prop} : ∀ a ∈ (Option.none : Option α), P a := fun a ha => by cases ha
  cases h with
  | none => exact ⟨_, _, _, records_of_eq rfl rfl rfl, hnothing, hnothing⟩
  | created args upsert e phase fresh findings records logged scalars =>
    exact ⟨_, _, _, records, hnothing, hnothing⟩
  | reassessed args q e phase found identity findings records logged =>
    exact ⟨_, _, _, records, hnothing, hnothing⟩
  | submitted args stored finding q e phase found status findings records logged readable =>
    exact ⟨_, _, _, records, hnothing, hnothing⟩
  | mutated change m row e phase mutation found status findings records logged readable =>
    refine ⟨_, _, _, records, ?_, ?_⟩
    · subst mutation
      intro a ha
      cases change with
      | start implementer finding =>
        simp only [Change.mutation] at ha
        have hfound : db.findings.find? finding.findingId = some row := found
        have hrow' := findings finding.findingId
        rw [hfound, Option.map_some, if_pos (by rfl)] at hrow'
        refine ⟨implementer, finding, row, phase, found, by simpa [Change.mutation] using status,
          hrow', ?_⟩
        cases howner : finding.actionOwner with
        | none =>
          rw [howner] at ha
          cases ha
        | some owner =>
          rw [howner] at ha
          cases ha
          exact ⟨rfl, rfl⟩
      | _ => cases ha
    · subst mutation
      intro v hv
      cases change with
      | verify passed notes finding =>
        cases hv
        exact ⟨passed, notes, finding, row, phase, found, by simpa [Change.mutation] using status,
          rfl, rfl⟩
      | _ => cases hv

omit [PyFloat F] in
theorem conclude_fst (db : Db F) (k : Text) (outcome : Except PyError (Db F)) :
    (conclude db k outcome).1 = db ∨ outcome = .ok (conclude db k outcome).1 := by
  cases outcome with
  | ok db' => exact .inr rfl
  | error e => exact .inl rfl

variable {S : Type}

theorem effect_create (H : Digest) (db : Db F) (p : Pending F) (stamp : Stamp F)
    {args : FindingArgs} {upsert : Option FindingArgs} (hphase : p.phase = .create args upsert)
    {db' : Db F} (h : createFinding H db p.actor args stamp = .ok db') : Effect H db p stamp db' := by
  obtain ⟨hfresh, hfindings, hrecords, ⟨e, he⟩, hscalars⟩ := createFinding_eq_ok h
  exact .created args upsert e hphase hfresh hfindings hrecords he hscalars

/-- Each phase has one of the effects. -/
theorem advance_effect (H : Digest) (store : EvidenceStore S) (db : Db F) (objects : S)
    (p : Pending F) (stamp : Stamp F) :
    Effect H db p stamp (advance H store db objects p stamp).1.1 := by
  unfold advance
  cases hphase : p.phase with
  | create args upsert =>
    simp only
    split
    · split_ifs
      · exact .none
      · exact .none
    · rename_i outcome _ _
      rcases conclude_fst db args.findingId.text
        (createFinding H db p.actor args stamp) with hsame | hok
      · rw [hsame]
        exact .none
      · exact effect_create H db p stamp hphase hok
  | reassess args =>
    rcases conclude_fst db args.findingId.text
      (reassessFinding H db p.actor args stamp) with hsame | hok
    · rw [hsame]
      exact .none
    · obtain ⟨⟨row, hfound, hid⟩, hfindings, hrecords, ⟨e, he⟩⟩ := reassessFinding_eq_ok hok
      exact .reassessed args row e hphase hfound hid hfindings hrecords he
  | mutate change =>
    rcases conclude_fst db (change.mutation p.actor p.recordId).findingId
      (mutate H db p.actor (change.mutation p.actor p.recordId) stamp) with hsame | hok
    · rw [hsame]
      exact .none
    · obtain ⟨⟨row, hfound, hstatus⟩, hfindings, hrecords, ⟨e, he⟩, hupdates, hworkflow⟩ :=
        mutate_eq_ok hok
      exact .mutated change _ row e hphase rfl hfound hstatus hfindings hrecords he
        (change.readable p.actor p.recordId hupdates hworkflow)
  | duplicate args finding =>
    simp only
    split_ifs
    · exact .none
    · exact .none
  | persist args finding =>
    simp only
    split
    · exact .none
    · split_ifs
      · exact .none
      · exact .none
  | commitEvidence args stored finding =>
    rcases conclude_fst db finding.findingId (commitEvidence H db finding.findingId p.actor args
      (evidenceId p.recordId) stored stamp) with hsame | hok
    · rw [hsame]
      exact .none
    · rcases commitEvidence_eq_ok hok with hsame | ⟨⟨row, hfound, hstatus⟩, hfindings, hrecords,
        ⟨e, he⟩, hsource, hsha, hkey⟩
      · rw [hsame]
        exact .none
      · exact .submitted args stored finding row e hphase hfound hstatus hfindings hrecords he
          (args.readable p.recordId stored hsource hsha hkey)

end SentinelGRC.Governance
