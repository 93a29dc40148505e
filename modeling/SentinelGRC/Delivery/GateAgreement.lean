import SentinelGRC.Delivery.LiveGate

/-!
The agreement of the publisher and the live gate. What the gate reads of a message decides
whether it accepts it, and that is what the publisher sent, field by field. Only a session
that the broker did not set reads like one, the session `None`.
-/

namespace SentinelGRC.Delivery

open Python Json Store Governance Transition

variable {F S : Type} [PyFloat F] {H : Digest}

/-! ### What the gate reads -/

/-- The gate reads from a message what the publisher sent. -/
structure Reads (m : ReceivedMessage) (sent : ServiceBusMessage) (fromDeadLetter : Bool) : Prop where
  body : messageBody m.body = .ok sent.body
  messageId : strOf m.messageId = sent.messageId
  sessionId : strOf m.sessionId = sent.sessionId
  subject : strOf m.subject = sent.subject
  contentType : strOf m.contentType = sent.contentType
  correlationId : strOf m.correlationId = sent.correlationId
  properties : ∃ ps, properties m = .ok ps ∧
    ps.Perm (boundProperties sent.eventSequence sent.payloadSha256 fromDeadLetter)

/-- The message carries what the publisher sent; a dead-letter queue has added its reason. -/
structure Carries (m : ReceivedMessage) (sent : ServiceBusMessage) (fromDeadLetter : Bool) : Prop where
  body : messageBody m.body = .ok sent.body
  messageId : m.messageId = some sent.messageId
  sessionId : m.sessionId = some sent.sessionId
  subject : m.subject = some sent.subject
  contentType : m.contentType = some sent.contentType
  correlationId : m.correlationId = some sent.correlationId
  properties : ∃ ps, properties m = .ok ps ∧
    ps.Perm (boundProperties sent.eventSequence sent.payloadSha256 fromDeadLetter)

omit [PyFloat F] in
theorem strOf_eq_iff {v : Option Text} {t : Text} (h : t ≠ lit "None") : strOf v = t ↔ v = some t := by
  cases v with
  | none => simp [strOf, Ne.symm h]
  | some s => simp [strOf]

theorem Carries.reads {m : ReceivedMessage} {sent : ServiceBusMessage} {fromDeadLetter : Bool}
    (h : Carries m sent fromDeadLetter) : Reads m sent fromDeadLetter where
  body := h.body
  messageId := by rw [h.messageId, strOf]
  sessionId := by rw [h.sessionId, strOf]
  subject := by rw [h.subject, strOf]
  contentType := by rw [h.contentType, strOf]
  correlationId := by rw [h.correlationId, strOf]
  properties := h.properties

theorem isId_ne_none {t : Text} (h : isId t = true) : t ≠ lit "None" := by
  rintro rfl
  revert h
  decide

/-- The broker's fields are set where the gate reads what was sent, unless that is `None`. -/
theorem Reads.carries {m : ReceivedMessage} {sent : ServiceBusMessage} {fromDeadLetter : Bool}
    (h : Reads m sent fromDeadLetter) (hid : isId sent.messageId = true)
    (hcorrelation : isId sent.correlationId = true) (hsubject : sent.subject = expectedTopic)
    (htype : sent.contentType = lit "application/json") (hsession : sent.sessionId ≠ lit "None") :
    Carries m sent fromDeadLetter where
  body := h.body
  messageId := (strOf_eq_iff (isId_ne_none hid)).mp h.messageId
  sessionId := (strOf_eq_iff hsession).mp h.sessionId
  subject := by
    refine (strOf_eq_iff ?_).mp h.subject
    rw [hsubject]
    decide
  contentType := by
    refine (strOf_eq_iff ?_).mp h.contentType
    rw [htype]
    decide
  correlationId := (strOf_eq_iff (isId_ne_none hcorrelation)).mp h.correlationId
  properties := h.properties

/-! ### Genuine rows -/

/-- What the core has written of an event, as its consumers find it. -/
structure Genuine (e : Event F) (o : OutboxRow F) : Prop where
  eventId : isId e.eventId = true ∧ o.eventId = e.eventId
  findingId : o.findingId = e.findingId
  eventSequence : o.eventSequence = e.eventSequence
  payload : ∃ fields, (loads o.payloadJson : Except PyError (Json F)) = .ok (.obj fields) ∧
    get fields (lit "event_sequence") = .int e.eventSequence

omit [PyFloat F] in
theorem isId_hex (id : Uuid) : isId id.hex = true := by
  rw [isId, decide_eq_true id.length_eq, Bool.true_and, List.all_eq_true]
  exact id.isLowerHex

/-- The names of the events are fresh identities. -/
structure IdentifiedLog (H : Digest) (db : Db F) : Prop where
  log : LogInvariant H db
  eventIds : ∀ e ∈ db.governanceEvents.rows, isId e.eventId = true

theorem identifiedLog_empty : IdentifiedLog H (Db.empty : Db F) where
  log := logInvariant_empty
  eventIds := fun e he => by cases he

theorem identifiedLog_next {db db' : Db F} {p : Pending F} {stamp : Stamp F}
    (heffect : Governance.Effect H db p stamp db') (h : IdentifiedLog H db) : IdentifiedLog H db' := by
  refine ⟨logInvariant_next heffect h.log, ?_⟩
  rcases heffect.logged h.log.scalars with rfl | ⟨k, type, details, e, hlogged, -⟩
  · exact h.eventIds
  · obtain ⟨o, x, hrows, -, -⟩ := hlogged.rows
    obtain ⟨id, hid⟩ := hrows.eventId
    intro d hd
    rw [hlogged.events, List.mem_append, List.mem_singleton] at hd
    rcases hd with hd | rfl
    · exact h.eventIds d hd
    · rw [hid]
      exact isId_hex id

theorem IdentifiedLog.genuine {db : Db F} (h : IdentifiedLog H db) {e : Event F}
    (he : e ∈ db.governanceEvents.rows) {o : OutboxRow F} (ho : o ∈ db.governanceOutbox.rows)
    (hid : o.eventId = e.eventId) : Genuine e o := by
  obtain ⟨o', ho', x, -, hqueued⟩ := h.log.queues e he
  obtain rfl : o = o' := by
    apply Unique.eq_of_clash OutboxRow.clash_comm ho ho'
    simp [OutboxRow.clash, hid, hqueued.outbox.eventId]
  obtain ⟨details, fields, -, hloads, hperm⟩ := hqueued.decodes
  have hnodup : ((eventPayload (e.body details) e.eventId e.eventSequence e.eventHash).map
      Prod.fst).Nodup := by
    change [lit "finding_id", lit "event_type", lit "actor_id", lit "actor_role", lit "auth_method",
      lit "occurred_at", lit "details", lit "previous_hash", lit "event_id", lit "event_sequence",
      lit "event_hash"].Nodup
    decide
  refine ⟨⟨h.eventIds e he, hid⟩, hqueued.outbox.findingId, hqueued.outbox.eventSequence, fields,
    hloads, ?_⟩
  change (field (lit "event_sequence") fields).getD .null = _
  rw [field_perm hperm ((hperm.map Prod.fst).nodup_iff.mpr hnodup)]
  rfl

/-! ### The gate -/

theorem expectedMessage_fields {messageId sessionId payloadSha256 : Text} {x : ExpectedMessage}
    (h : expectedMessage messageId sessionId payloadSha256 = .ok x) :
    x.messageId = messageId ∧ x.sessionId = sessionId ∧ x.payloadSha256 = payloadSha256 := by
  unfold expectedMessage at h
  split_ifs at h
  cases h
  exact ⟨rfl, rfl, rfl⟩

theorem expectedMessage_ok {messageId sessionId : Text} (hid : isId messageId = true)
    (hsession : Contracts.isIdentifier sessionId = true) (body : Bytes) :
    ∃ x, expectedMessage messageId sessionId (H.hexdigest body) = .ok x := by
  unfold expectedMessage
  rw [dif_pos hid, dif_pos hsession, dif_pos]
  · exact ⟨_, rfl⟩
  · exact ⟨H.hexdigest_length body, List.all_eq_true.mpr (H.isLowerHex_hexdigest body)⟩

/-- A message whose body has the hash of the one sent has its body. -/
def NoCollision (H : Digest) (m : ReceivedMessage) (sent : ServiceBusMessage) : Prop :=
  ∀ body, messageBody m.body = .ok body → H.digest body = H.digest sent.body → body = sent.body

section Row

variable {e : Event F} {o : OutboxRow F} {message : OutboxMessage} {expected : ExpectedMessage}
  {m : ReceivedMessage} {fromDeadLetter : Bool}

theorem published_eq (hm : fromItem H o = .ok message) : ∃ payload body, Valid o payload body ∧
    message.published = ⟨body, o.outboxId, lit "application/json", expectedTopic, o.findingId,
      o.findingId, o.eventId, o.eventSequence, H.hexdigest body⟩ := by
  obtain ⟨payload, body, hvalid, rfl⟩ := fromItem_eq_ok.mp hm
  refine ⟨payload, body, hvalid, ?_⟩
  rw [OutboxMessage.published, hvalid.topic]
  rfl

/-- The bytes of a body read back as the text of its row, which is ASCII. -/
theorem Valid.loadsBytes_eq {payload : Fields F} {body : Bytes} (h : Valid o payload body) :
    (loadsBytes body : Except PyError (Json F)) = .ok (.obj payload) := by
  have hplain : ∀ c ∈ o.payloadJson, Plain c := by
    have hcanonical := h.canonical
    unfold dumps at hcanonical
    split_ifs at hcanonical
    rw [← Except.ok.inj hcanonical]
    exact plain_render rfl _
  exact (loadsBytes_encodeUtf8 hplain h.encoded).trans h.parsed

/-- The gate accepts a message of which it reads what the publisher sent. -/
theorem accepts_of_reads (hm : fromItem H o = .ok message) (hgenuine : Genuine e o)
    (hexpected : expectedMessage o.outboxId e.findingId (H.hexdigest message.body) = .ok expected)
    (hreads : Reads m message.published fromDeadLetter) {n : ℕ} (hcount : m.deliveryCount = some (n : ℤ))
    {d : AwareDatetime} (htime : m.enqueuedTime = .aware d) (hrange : d.InRange) :
    ∃ report, verifyServiceBusMessage F H m expected fromDeadLetter = .ok report ∧
      report.eventSequence = e.eventSequence := by
  obtain ⟨payload, body, hvalid, hsent⟩ := published_eq hm
  have hbody : message.body = body := congrArg ServiceBusMessage.body hsent
  obtain ⟨hid, hsession, hsha⟩ := expectedMessage_fields hexpected
  obtain ⟨fields, hloads, hnumber⟩ := hgenuine.payload
  obtain rfl : fields = payload := by
    have hsame := hloads.symm.trans hvalid.parsed
    cases hsame
    rfl
  obtain ⟨utc, hutc⟩ : ∃ u, d.astimezone = .ok u := by
    rcases d.astimezone_cases with ⟨-, hu⟩ | ⟨hout, -⟩
    · exact hu
    · exact absurd hrange hout
  rw [hsent] at hreads
  refine ⟨⟨expected.messageId, expected.sessionId, expected.payloadSha256, e.eventSequence, n,
    isoformatMillis utc⟩, verifyServiceBusMessage_eq_ok.mpr ⟨fields, ?_⟩, rfl⟩
  exact
    { messageId := hreads.messageId.trans hid.symm
      sessionId := hreads.sessionId.trans (hgenuine.findingId.trans hsession.symm)
      subject := hreads.subject
      contentType := hreads.contentType
      body := ⟨body, o.payloadJson, hreads.body, by rw [hsha, hbody],
        hvalid.loadsBytes_eq, hvalid.canonical, hvalid.encoded⟩
      findingId := by
        rw [hsession, ← hgenuine.findingId]
        exact hvalid.findingId
      properties := by
        rw [hsha, hbody, ← hgenuine.eventSequence]
        exact hreads.properties
      eventSequence := by
        refine ⟨?_, hnumber⟩
        have hpos := hvalid.eventSequence
        rw [hgenuine.eventSequence] at hpos
        exact Int.ofNat_le.mpr hpos
      eventId := by
        rw [hreads.correlationId]
        exact hvalid.eventId
      deliveryCount := ⟨hcount, Int.natCast_nonneg n⟩
      enqueuedTime := ⟨d, utc, htime, hutc, rfl⟩
      reported := ⟨rfl, rfl, rfl⟩ }

/-- The gate reads what the publisher sent from every message that it accepts. -/
theorem reads_of_accepts (hm : fromItem H o = .ok message) (hgenuine : Genuine e o)
    (hexpected : expectedMessage o.outboxId e.findingId (H.hexdigest message.body) = .ok expected)
    (hfree : NoCollision H m message.published) {report : GateReport}
    (h : verifyServiceBusMessage F H m expected fromDeadLetter = .ok report) :
    Reads m message.published fromDeadLetter ∧ ∃ d, m.enqueuedTime = .aware d ∧ d.InRange := by
  obtain ⟨payload, body, hvalid, hsent⟩ := published_eq hm
  have hbody : message.body = body := congrArg ServiceBusMessage.body hsent
  obtain ⟨hid, hsession, hsha⟩ := expectedMessage_fields hexpected
  obtain ⟨read, haccepts⟩ := verifyServiceBusMessage_eq_ok.mp h
  obtain ⟨received, canonical, hreceived, hhash, hloads, hdumps, hencode⟩ := haccepts.body
  obtain rfl : received = body := by
    have hdigest : H.digest received = H.digest message.body := by
      apply hexText_injective
      exact hhash.trans hsha
    exact (hfree received hreceived hdigest).trans hbody
  obtain rfl : read = payload := by
    have hsame := hloads.symm.trans hvalid.loadsBytes_eq
    cases hsame
    rfl
  obtain ⟨fields, hpayload, hnumber⟩ := hgenuine.payload
  obtain rfl : fields = read := by
    have hsame := hpayload.symm.trans hvalid.parsed
    cases hsame
    rfl
  have hsequence : report.eventSequence = o.eventSequence := by
    have hsame := hnumber.symm.trans haccepts.eventSequence.2
    rw [hgenuine.eventSequence]
    exact (Json.int.inj hsame).symm
  constructor
  · rw [hsent]
    exact
      { body := hreceived
        messageId := haccepts.messageId.trans hid
        sessionId := haccepts.sessionId.trans (hsession.trans hgenuine.findingId.symm)
        subject := haccepts.subject
        contentType := haccepts.contentType
        correlationId := by
          have hcorrelation := (pyEq_str.mp haccepts.eventId).symm.trans (pyEq_str.mp hvalid.eventId)
          exact Json.str.inj hcorrelation
        properties := by
          have hproperties := haccepts.properties
          rw [hsequence, hsha, hbody] at hproperties
          exact hproperties }
  · obtain ⟨d, utc, htime, hutc, -⟩ := haccepts.enqueuedTime
    refine ⟨d, htime, ?_⟩
    rcases d.astimezone_cases with ⟨hrange, -⟩ | ⟨-, hover⟩
    · exact hrange
    · rw [hutc] at hover
      cases hover

end Row

/-! ### Agreement -/

/-- The message as the broker hands it over. -/
def ServiceBusMessage.received (sent : ServiceBusMessage) (deliveryCount : ℕ) (enqueued : AwareDatetime) :
    ReceivedMessage where
  messageId := some sent.messageId
  sessionId := some sent.sessionId
  subject := some sent.subject
  contentType := some sent.contentType
  correlationId := some sent.correlationId
  body := .bytes sent.body
  applicationProperties := some [(.text (lit "event_sequence"), .int sent.eventSequence),
    (.text (lit "payload_sha256"), .text sent.payloadSha256)]
  deliveryCount := some (deliveryCount : ℤ)
  enqueuedTime := .aware enqueued

/-- For the identities of an event the gate accepts the message of its row as it was sent, after
any number of deliveries, and reports the number of the event. It rejects every other message. -/
structure Agrees (H : Digest) (e : Event F) (o : OutboxRow F) (message : OutboxMessage)
    (enqueued : AwareDatetime) : Prop where
  accepts : ∀ (m : ReceivedMessage) (fromDeadLetter : Bool) (n : ℕ),
    Carries m message.published fromDeadLetter → m.deliveryCount = some (n : ℤ) →
      m.enqueuedTime = .aware enqueued → ∃ expected report,
        expectedMessage o.outboxId e.findingId (H.hexdigest message.body) = .ok expected ∧
          verifyServiceBusMessage F H m expected fromDeadLetter = .ok report ∧
            report.eventSequence = e.eventSequence
  rejects : ∀ (m : ReceivedMessage) (fromDeadLetter : Bool) (expected : ExpectedMessage),
    expectedMessage o.outboxId e.findingId (H.hexdigest message.body) = .ok expected →
      ¬ Carries m message.published fromDeadLetter → NoCollision H m message.published →
        ∀ report, verifyServiceBusMessage F H m expected fromDeadLetter ≠ .ok report

section Row

variable {e : Event F} {o : OutboxRow F} {message : OutboxMessage}

theorem carries_received (hm : fromItem H o = .ok message) (n : ℕ) (d : AwareDatetime) :
    Carries (message.published.received n d) message.published false := by
  obtain ⟨payload, body, hvalid, hsent⟩ := published_eq hm
  refine ⟨?_, rfl, rfl, rfl, rfl, rfl, _, ?_, List.Perm.refl _⟩
  · rw [hsent]
    change (if body.isEmpty = true ∨ maxMessageBytes < body.length then _ else _) = _
    refine if_neg ?_
    rw [not_or, List.isEmpty_iff, not_lt]
    exact hvalid.size
  · rfl

theorem noCollision_of_body {m : ReceivedMessage} {sent : ServiceBusMessage}
    (h : messageBody m.body = .ok sent.body) : NoCollision H m sent := by
  intro body hbody _
  rw [h] at hbody
  exact (Except.ok.inj hbody).symm

/-- The publisher and the gate agree on an event exactly when the broker's time is one of UTC and
the finding is not named like a session that is not set. -/
theorem agrees_iff (hm : fromItem H o = .ok message) (hgenuine : Genuine e o)
    (hidentifier : Contracts.isIdentifier e.findingId = true) (d : AwareDatetime) :
    Agrees H e o message d ↔ d.InRange ∧ e.findingId ≠ lit "None" := by
  obtain ⟨payload, body, hvalid, hsent⟩ := published_eq hm
  obtain ⟨expected, hexpected⟩ := expectedMessage_ok (H := H) hvalid.outboxId hidentifier message.body
  constructor
  · intro h
    have hcarries := carries_received hm 0 d
    constructor
    · obtain ⟨x, report, hx, hreport, -⟩ := h.accepts _ false 0 hcarries rfl rfl
      obtain ⟨-, d', htime, hrange⟩ :=
        reads_of_accepts hm hgenuine hx (noCollision_of_body hcarries.body) hreport
      cases htime
      exact hrange
    · intro hnone
      let unset : ReceivedMessage := { message.published.received 0 d with sessionId := none }
      have hreads : Reads unset message.published false :=
        { hcarries.reads with
          sessionId := by
            rw [hsent]
            exact hnone.symm.trans hgenuine.findingId.symm }
      obtain ⟨x, report, hx, hreport, -⟩ := h.accepts _ false 0 hcarries rfl rfl
      obtain ⟨-, d', htime, hrange⟩ :=
        reads_of_accepts hm hgenuine hx (noCollision_of_body hcarries.body) hreport
      cases htime
      obtain ⟨report', hreport', -⟩ := accepts_of_reads hm hgenuine hexpected hreads rfl rfl hrange
      refine h.rejects unset false expected hexpected ?_ (noCollision_of_body hreads.body) _ hreport'
      intro hunset
      cases hunset.sessionId
  · rintro ⟨hrange, hne⟩
    constructor
    · intro m fromDeadLetter n hcarries hcount htime
      obtain ⟨report, hreport, hsequence⟩ :=
        accepts_of_reads hm hgenuine hexpected hcarries.reads hcount htime hrange
      exact ⟨expected, report, hexpected, hreport, hsequence⟩
    · intro m fromDeadLetter x hx hchanged hfree report hreport
      obtain ⟨hreads, -⟩ := reads_of_accepts hm hgenuine hx hfree hreport
      apply hchanged
      rw [hsent] at hreads ⊢
      refine hreads.carries hvalid.outboxId ?_ rfl rfl ?_
      · exact hgenuine.eventId.2.symm ▸ hgenuine.eventId.1
      · exact hgenuine.findingId.symm ▸ hne

end Row

/-- An event with a name that the gate knows, its row and the message made from it. -/
structure Publishable (H : Digest) (db : Db F) (e : Event F) (o : OutboxRow F)
    (message : OutboxMessage) : Prop where
  event : e ∈ db.governanceEvents.rows
  row : o ∈ db.governanceOutbox.rows
  eventId : o.eventId = e.eventId
  accepted : fromItem H o = .ok message
  identifier : Contracts.isIdentifier e.findingId = true

theorem identifiedLog_run (store : EvidenceStore S) (objects : S) (actions : List (Action F)) :
    IdentifiedLog H ((governance H store).run (Sys.init objects) actions).db :=
  run_keeps identifiedLog_empty (fun _ _ _ _ _ heffect h => identifiedLog_next heffect h) objects
    actions

/-- The publisher and the gate agree on every event committed that can be published, but for
enqueue times outside the years of UTC and for the finding `None`. -/
theorem committed_agrees_iff (H : Digest) (store : EvidenceStore S) (objects : S)
    (actions : List (Action F)) (e : Event F) (o : OutboxRow F) (message : OutboxMessage)
    (h : Publishable H ((governance H store).run (Sys.init objects) actions).db e o message)
    (enqueued : AwareDatetime) :
    Agrees H e o message enqueued ↔ enqueued.InRange ∧ e.findingId ≠ lit "None" := by
  have hlog : IdentifiedLog H ((governance H store).run (Sys.init objects) actions).db :=
    identifiedLog_run store objects actions
  exact agrees_iff h.accepted (hlog.genuine h.event h.row h.eventId) h.identifier enqueued

/-- Some event of a finding can be published. -/
def publishes (H : Digest) (db : Db F) (k : Text) : Bool :=
  db.governanceOutbox.rows.any fun o => (fromItem H o).toOption.isSome &&
    db.governanceEvents.rows.any fun e => decide (o.eventId = e.eventId) &&
      (decide (e.findingId = k) && Contracts.isIdentifier e.findingId)

theorem publishable_of_publishes {db : Db F} {k : Text} (h : publishes H db k = true) :
    ∃ e o message, Publishable H db e o message ∧ e.findingId = k := by
  obtain ⟨o, ho, h⟩ := List.any_eq_true.mp h
  obtain ⟨haccepted, h⟩ := Bool.and_eq_true_iff.mp h
  obtain ⟨e, he, h⟩ := List.any_eq_true.mp h
  simp only [Bool.and_eq_true, decide_eq_true_eq] at h
  obtain ⟨hid, hk, hidentifier⟩ := h
  cases hmessage : fromItem H o with
  | error error =>
    rw [hmessage] at haccepted
    cases haccepted
  | ok message => exact ⟨e, o, message, ⟨he, ho, hid, hmessage, hidentifier⟩, hk⟩

/-- Noon of a day in 2026, in UTC. -/
def noon : AwareDatetime where
  year := 2026
  month := 1
  day := 15
  year_range := year_2026
  month_range := by decide
  day_range := by decide
  hour := 12
  minute := 0
  second := 0
  microsecond := 0
  offset := 0
  offset_range := zero_offset

theorem noon_inRange : noon.InRange := by
  constructor
  · intro _
    decide
  · intro _
    decide

/-- The creation of a finding is published and verified. -/
theorem committed_agrees_created : ∃ e o message, e.findingId = lit "F-1" ∧
    Agrees sha256 e o message noon ∧
    Publishable sha256 (governanceCore.run governanceStart (performed 0 analyst createF1)).db e o
      message := by
  have hpublishes : publishes sha256 (governanceCore.run governanceStart
      (performed 0 analyst createF1)).db (lit "F-1") = true := by decide +kernel
  obtain ⟨e, o, message, h, hk⟩ := publishable_of_publishes hpublishes
  refine ⟨e, o, message, hk, ?_, h⟩
  refine (committed_agrees_iff sha256 (memoryEvidenceStore sha256) Table.empty _ e o message h
    noon).mpr ⟨noon_inRange, ?_⟩
  rw [hk]
  decide

def createNone : Operation :=
  .createFinding (lit "None") (lit "C-1") (lit "A-1") (lit "title") (lit "owner-1") (lit "high")

/-- The gate accepts a message without a session for the finding `None`. -/
theorem missing_session_accepted : ∃ e o message,
    Publishable sha256 (governanceCore.run governanceStart (performed 0 analyst createNone)).db e o
      message ∧ ¬ Agrees sha256 e o message noon := by
  have hpublishes : publishes sha256 (governanceCore.run governanceStart
      (performed 0 analyst createNone)).db (lit "None") = true := by decide +kernel
  obtain ⟨e, o, message, h, hk⟩ := publishable_of_publishes hpublishes
  refine ⟨e, o, message, h, ?_⟩
  have hlog : IdentifiedLog sha256
      (governanceCore.run governanceStart (performed 0 analyst createNone)).db :=
    identifiedLog_run (memoryEvidenceStore sha256) Table.empty _
  rw [agrees_iff h.accepted (hlog.genuine h.event h.row h.eventId) h.identifier]
  exact fun hagree => hagree.2 hk

end SentinelGRC.Delivery
