import SentinelGRC.Delivery.Archive
import SentinelGRC.Delivery.Outbox
import SentinelGRC.Governance.EventChain
import SentinelGRC.Python.JsonSize

/-!
Which events can be delivered. Both consumers check what the core has committed, and the
core itself bounds neither the names in an actor nor the texts of decisions, notes and
closures. The rows of an event are accepted exactly when its actor's names are short and
its payload fits in a message.
-/

namespace SentinelGRC.Delivery

open Python Json Store Governance Transition

variable {F S : Type} [PyFloat F] {H : Digest}

/-! ### Lengths -/

/-- The length of the payload with a body: the event adds two hashes' worth of digits and its
number to it, under their keys. -/
def payloadLength (body : Fields F) (eventSequence : ℕ) : ℕ :=
  ((Json.obj body).render compact).length + 144 + (natText eventSequence).length

omit [PyFloat F] in
theorem length_quote_of_isLowerHex {t : Text} (h : ∀ c ∈ t, isLowerHex c = true) :
    (quote compact t).length = t.length + 2 := by
  have hplain : t.flatMap (escapeChar compact.ensureAscii) = t := by
    have hchar (c : CodePoint) (hc : c ∈ t) : escapeChar compact.ensureAscii c = [c] := by
      have hhex := h c hc
      simp only [isLowerHex, Bool.or_eq_true, Bool.and_eq_true, decide_eq_true_eq] at hhex
      unfold escapeChar
      rw [if_neg (by omega), if_neg (by omega), if_neg (by omega), if_neg (by omega),
        if_neg (by omega), if_neg (by omega), if_neg (by omega), if_neg (by simp; omega)]
    rw [List.flatMap_congr hchar, List.flatMap_singleton']
  rw [quote, hplain, List.length_cons, List.length_append, List.length_singleton]

theorem length_payload {body : Fields F} (hbody : body ≠ []) {eventId eventHash : Text} (n : ℕ)
    (hid : eventId.length = 32 ∧ ∀ c ∈ eventId, isLowerHex c = true)
    (hhash : eventHash.length = 64 ∧ ∀ c ∈ eventHash, isLowerHex c = true) :
    ((Json.obj (eventPayload body eventId n eventHash)).render compact).length =
      payloadLength body n := by
  have hlength : 1 ≤ body.length := List.length_pos_iff.mpr hbody
  have hkeys : (quote compact (lit "event_id")).length = 10 ∧
      (quote compact (lit "event_sequence")).length = 16 ∧
      (quote compact (lit "event_hash")).length = 12 ∧ compact.keySep.length = 1 ∧
      compact.itemSep.length = 1 := by decide
  have hnumber : intText (n : ℤ) = natText n := rfl
  rw [payloadLength, eventPayload, render, render, List.length_cons, List.length_cons,
    List.length_append, List.length_append, length_renderFields, length_renderFields, List.map_append,
    List.sum_append, List.length_append]
  simp only [List.map_cons, List.map_nil, List.sum_cons, List.sum_nil, renderField, render,
    List.length_append, List.length_cons, List.length_nil, hkeys, hnumber,
    length_quote_of_isLowerHex hid.2, length_quote_of_isLowerHex hhash.2, hid.1, hhash.1]
  omega

/-! ### Accepted rows -/

/-- `from_item` accepts the row. -/
def OutboxAccepts (H : Digest) (o : OutboxRow F) : Prop := ∃ message, fromItem H o = .ok message

/-- `serialize_event` accepts what `json.loads` reads from the row. -/
def ArchiveAccepts (H : Digest) (x : AuditExport F) : Prop :=
  ∃ event result, (loads x.payloadJson : Except PyError (Json F)) = .ok event ∧
    serializeEvent H event = .ok result

section Rows

variable {events : List (Event F)} {k : Text} {type : EventType} {actor : ActorContext}
  {details : Fields F} {now : F} {e : Event F} {o : OutboxRow F} {x : AuditExport F}

/-- The payload of an event. -/
def payloadOf (e : Event F) (details : Fields F) : Fields F :=
  eventPayload (e.body (.obj details)) e.eventId e.eventSequence e.eventHash

omit [PyFloat F] in
theorem payload_nodup (e : Event F) (details : Fields F) :
    ((payloadOf e details).map Prod.fst).Nodup := by
  change [lit "finding_id", lit "event_type", lit "actor_id", lit "actor_role", lit "auth_method",
    lit "occurred_at", lit "details", lit "previous_hash", lit "event_id", lit "event_sequence",
    lit "event_hash"].Nodup
  decide

theorem eventHash_isHex (h : EventRows H events k type actor details now e o x) :
    e.eventHash.length = 64 ∧ ∀ c ∈ e.eventHash, isLowerHex c = true := by
  obtain ⟨text, bytes, -, -, hhash⟩ := chainHash_eq_ok.mp h.eventHash
  rw [← hhash]
  exact ⟨H.hexdigest_length bytes, H.isLowerHex_hexdigest bytes⟩

theorem eventId_isHex (h : EventRows H events k type actor details now e o x) :
    e.eventId.length = 32 ∧ ∀ c ∈ e.eventId, isLowerHex c = true := by
  obtain ⟨id, hid⟩ := h.eventId
  rw [hid]
  exact ⟨id.length_eq, id.isLowerHex⟩

/-- The text of the payload is ASCII, and as long as the body and the number of the event say. -/
theorem payload_text (h : EventRows H events k type actor details now e o x)
    (hdetails : Readable details) {text : Text}
    (htext : dumps compact (.obj (payloadOf e details)) = .ok text) :
    (∀ c ∈ text, Plain c) ∧ text.length = payloadLength (e.body (.obj details)) e.eventSequence := by
  unfold dumps at htext
  split_ifs at htext
  cases htext
  constructor
  · intro c hc
    have hscalars := (scalars_sortKeys _).mpr (h.readable_payload hdetails).scalars
    rcases textChar_render _ hscalars c hc with hplain | ⟨hascii, -⟩
    · exact hplain
    · cases hascii
  · rw [length_render_sortKeys, payloadOf, length_payload (by simp [Event.body, eventBody]) _
      (eventId_isHex h) (eventHash_isHex h)]

omit [PyFloat F] in
theorem blank_of_isLowerHex {t : Text} {n : ℕ} (hlength : t.length = n) (hn : n ≠ 0)
    (h : ∀ c ∈ t, isLowerHex c = true) : blank t = false := by
  have hspace (c : CodePoint) (hc : isLowerHex c = true) : isSpace c = false := by
    simp only [isLowerHex, Bool.or_eq_true, Bool.and_eq_true, decide_eq_true_eq] at hc
    rw [Bool.eq_false_iff]
    simp only [isSpace, ne_eq, Bool.or_eq_true, Bool.and_eq_true, decide_eq_true_eq, beq_iff_eq]
    omega
  rw [Bool.eq_false_iff]
  intro hblank
  cases t with
  | nil => exact hn hlength.symm
  | cons c t =>
    have hc := hspace c (h c List.mem_cons_self)
    rw [blank_iff.mp hblank c List.mem_cons_self] at hc
    cases hc

theorem blank_dumps_obj {fields : Fields F} {text : Text}
    (h : dumps compact (.obj fields) = .ok text) : blank text = false := by
  unfold dumps at h
  split_ifs at h
  cases h
  rw [Bool.eq_false_iff]
  intro hblank
  rw [sortKeys_obj, render] at hblank
  have hspace := blank_iff.mp hblank _ List.mem_cons_self
  revert hspace
  decide

/-- The outbox accepts a row exactly when its payload fits in a message. -/
theorem outbox_accepts_iff (h : EventRows H events k type actor details now e o x)
    (hdetails : Readable details) (hk : blank k = false) (hsequence : 1 ≤ e.eventSequence) :
    OutboxAccepts H o ↔ payloadLength (e.body (.obj details)) e.eventSequence ≤ maxMessageBytes := by
  obtain ⟨payloadJson, hout, -, hpayload⟩ := h.payload
  obtain ⟨hplain, hlength⟩ := payload_text h hdetails hpayload
  have hscalar : Scalar payloadJson := fun c hc => isSurrogate_of_plain (hplain c hc)
  have hbody {body : Bytes} (hencode : encodeUtf8 o.payloadJson = .ok body) :
      body.length = payloadLength (e.body (.obj details)) e.eventSequence := by
    rw [length_encodeUtf8 hencode, hout.payloadJson, utf8Length_of_plain hplain, hlength]
  constructor
  · rintro ⟨message, hmessage⟩
    obtain ⟨payload, body, hvalid, -⟩ := fromItem_eq_ok.mp hmessage
    rw [← hbody hvalid.encoded]
    exact hvalid.size.2
  · intro hsize
    obtain ⟨body, hencode⟩ : ∃ body, encodeUtf8 o.payloadJson = .ok body :=
      ⟨_, encodeUtf8_eq_ok.mpr ⟨hout.payloadJson ▸ hscalar, rfl⟩⟩
    refine ⟨_, fromItem_eq_ok.mpr ⟨sortDict (payloadOf e details), body, ?_, rfl⟩⟩
    have hid := eventId_isHex h
    obtain ⟨id, hoid⟩ := hout.outboxId
    have hget := get_sortDict (payload_nodup e details)
    exact
      { nonblank := by
          simp only [List.mem_cons, List.not_mem_nil, or_false, forall_eq_or_imp, forall_eq]
          refine ⟨?_, ?_, ?_, ?_, ?_⟩
          · rw [hoid]
            exact blank_of_isLowerHex id.length_eq (by decide) id.isLowerHex
          · rw [hout.eventId]
            exact blank_of_isLowerHex hid.1 (by decide) hid.2
          · rw [hout.findingId, h.findingId, hk]
          · rw [hout.topic]
            decide
          · rw [hout.payloadJson]
            exact blank_dumps_obj hpayload
        outboxId := by
          rw [hoid, isId, decide_eq_true id.length_eq, Bool.true_and, List.all_eq_true]
          exact id.isLowerHex
        topic := hout.topic
        parsed := by
          rw [hout.payloadJson, loads_readable (h.readable_payload hdetails) hpayload, sortKeys_obj]
          rfl
        eventSequence := by
          rw [hout.eventSequence]
          exact hsequence
        eventId := by
          rw [hget, pyEq_str, hout.eventId]
          rfl
        findingId := by
          rw [hget, pyEq_str, hout.findingId]
          rfl
        sequence := by
          have hnumber : get (payloadOf e details) (lit "event_sequence") = .int e.eventSequence := rfl
          rw [hget, hnumber, hout.eventSequence]
          simp [sortKeys, pyEq, leafEq, number?, numEq]
        canonical := by
          rw [← sortKeys_obj, dumps_sortKeys, hout.payloadJson]
          exact hpayload
        encoded := hencode
        size := by
          have hlength := hbody hencode
          refine ⟨?_, hlength.trans_le hsize⟩
          rintro rfl
          rw [payloadLength, List.length_nil] at hlength
          omega }

theorem isAuditScalar_eventType (type : EventType) : isAuditScalar type.text = true := by
  cases type <;> decide

theorem isAuditScalar_role (role : Role) : isAuditScalar role.text = true := by
  cases role <;> decide

omit [PyFloat F] in
theorem payload_schema (e : Event F) (details : Fields F) :
    validateEventSchema (.obj (sortDict (payloadOf e details))) =
      .ok (sortDict (payloadOf e details)) := by
  have hkeys : ((sortDict (payloadOf e details)).map Prod.fst).Perm
      [lit "finding_id", lit "event_type", lit "actor_id", lit "actor_role", lit "auth_method",
        lit "occurred_at", lit "details", lit "previous_hash", lit "event_id", lit "event_sequence",
        lit "event_hash"] := keys_sortKeys (payloadOf e details)
  unfold validateEventSchema
  refine if_pos ⟨?_, ?_⟩
  · intro k hk
    rw [hkeys.mem_iff] at hk
    revert k
    decide
  · intro k hk
    rw [hkeys.mem_iff]
    revert k
    decide

omit [PyFloat F] in
theorem payload_fields (e : Event F) (details : Fields F)
    (hprevious : (e.previousHash.isEmpty || isHex 64 e.previousHash) = true) :
    validatePayloadFields (sortDict (payloadOf e details)) = .ok e.previousHash := by
  have hget := get_sortDict (payload_nodup e details)
  have hdetails : get (sortDict (payloadOf e details)) (lit "details") = .obj (sortDict details) := by
    rw [hget, ← sortKeys_obj]
    rfl
  have hat : get (sortDict (payloadOf e details)) (lit "occurred_at") =
      .float (.finite e.occurredAt) := by
    rw [hget]
    rfl
  have hhash : get (sortDict (payloadOf e details)) (lit "previous_hash") = .str e.previousHash := by
    rw [hget]
    rfl
  have hcheck : auditText "previous_hash" (fun t => t.isEmpty || isHex 64 t)
      (.str e.previousHash : Json F) = .ok e.previousHash := auditText_eq_ok.mpr ⟨rfl, hprevious⟩
  unfold validatePayloadFields
  rw [hdetails, hat, hhash]
  exact hcheck

theorem payload_content (h : EventRows H events k type actor details now e o x)
    (hdetails : Readable details) (hfinite : (Json.obj details).all Audit.finiteNode = true)
    (hsize : payloadLength (e.body (.obj details)) e.eventSequence ≤ maxMessageBytes) :
    ∃ out, serializeContent H (sortDict (payloadOf e details)) = .ok out := by
  obtain ⟨payloadJson, -, -, hpayload⟩ := h.payload
  obtain ⟨-, hlength⟩ := payload_text h hdetails hpayload
  have hread := h.readable_payload hdetails
  unfold dumps at hpayload
  split_ifs at hpayload with hprintable
  cases hpayload
  have hfinite : (Json.obj (payloadOf e details)).all Audit.finiteNode = true := by
    simpa [payloadOf, eventPayload, Event.body, eventBody, all, allFields, allField,
      Audit.finiteNode] using hfinite
  have hobj : (Json.obj (sortDict (payloadOf e details))).sortKeys = (Json.obj (payloadOf e details)).sortKeys := by
    rw [← sortKeys_obj, sortKeys_sortKeys]
  have hcanonical : Audit.canonicalJson (.obj (sortDict (payloadOf e details))) =
      .ok ((Json.obj (payloadOf e details)).sortKeys.render Audit.recordStyle) := by
    refine Audit.canonicalJson_eq_ok.mpr ⟨?_, ?_, by rw [hobj]⟩
    · rw [← sortKeys_obj, Audit.sortStable_finiteNode.all_sortKeys]
      exact hfinite
    · rw [← sortKeys_obj, printable_sortKeys]
      exact hprintable
  have hscalar : Scalar ((Json.obj (payloadOf e details)).sortKeys.render Audit.recordStyle) :=
    scalar_render ((scalars_sortKeys _).mpr hread.scalars)
  obtain ⟨content, hcontent⟩ : ∃ content, encodeUtf8
      ((Json.obj (payloadOf e details)).sortKeys.render Audit.recordStyle) = .ok content :=
    ⟨_, encodeUtf8_eq_ok.mpr ⟨hscalar, rfl⟩⟩
  have hbytes := length_encodeUtf8 hcontent
  refine serializeContent_ok.mpr ⟨_, content, hcanonical, hcontent, ?_, ?_⟩
  · rintro rfl
    rw [sortKeys_obj, render, utf8Length_cons, List.length_nil] at hbytes
    have := (toChar (ofChar '\x7b')).utf8Size_pos
    omega
  · have hle : content.length ≤ _ := hbytes.trans_le (utf8Length_render false _)
    exact (hle.trans hlength.le).trans hsize

/-- The archive accepts a row whose payload fits exactly when the names of the actor are short. -/
theorem archive_accepts_iff (h : EventRows H events k type actor details now e o x)
    (hdetails : Readable details) (hfinite : (Json.obj details).all Audit.finiteNode = true)
    (hk : k ≠ [] ∧ k.length ≤ 128) (hsequence : 1 ≤ e.eventSequence)
    (hprevious : (e.previousHash.isEmpty || isHex 64 e.previousHash) = true)
    (hsize : payloadLength (e.body (.obj details)) e.eventSequence ≤ maxMessageBytes) :
    ArchiveAccepts H x ↔ actor.actorId.length ≤ 128 ∧ actor.authMethod.length ≤ 128 := by
  obtain ⟨payloadJson, -, hexp, hpayload⟩ := h.payload
  have hread := h.readable_payload hdetails
  have hloads : (loads x.payloadJson : Except PyError (Json F)) =
      .ok (.obj (sortDict (payloadOf e details))) := by
    rw [hexp.payloadJson, loads_readable hread hpayload, sortKeys_obj]
    rfl
  have hget := get_sortDict (payload_nodup e details)
  constructor
  · rintro ⟨event, result, hevent, hresult⟩
    obtain rfl := Except.ok.inj (hloads.symm.trans hevent)
    have hscalars := validateScalarFields_eq_ok.mp (validateScalarFields_of_serializeEvent hresult)
    have hshort {name : String} {t : Text} (hname : name ∈ auditScalarFields)
        (ht : get (payloadOf e details) (lit name) = .str t) : t.length ≤ 128 := by
      obtain ⟨u, hu, hcheck⟩ := hscalars name hname
      rw [hget, ht] at hu
      cases hu
      simp only [isAuditScalar, Bool.and_eq_true, decide_eq_true_eq] at hcheck
      exact hcheck.2
    rw [← h.actorId, ← h.authMethod]
    exact ⟨@hshort "actor_id" _ (by decide) rfl, @hshort "auth_method" _ (by decide) rfl⟩
  · rintro ⟨hactor, hauth⟩
    obtain ⟨out, hcontent⟩ := payload_content h hdetails hfinite hsize
    have hidentity : Identified (sortDict (payloadOf e details))
        ⟨e.eventId, e.eventHash, e.findingId, e.eventSequence⟩ := by
      have hid := eventId_isHex h
      have hhash := eventHash_isHex h
      exact
        { eventId := by
            rw [hget, isHex, decide_eq_true hid.1, Bool.true_and, List.all_eq_true]
            exact ⟨rfl, hid.2⟩
          eventHash := by
            rw [hget, isHex, decide_eq_true hhash.1, Bool.true_and, List.all_eq_true]
            exact ⟨rfl, hhash.2⟩
          findingId := by
            rw [hget]
            exact ⟨rfl, h.findingId ▸ hk⟩
          sequence := by
            rw [hget]
            exact ⟨rfl, hsequence⟩ }
    have hscalars : validateScalarFields (sortDict (payloadOf e details)) = .ok () := by
      rw [validateScalarFields_eq_ok]
      simp only [auditScalarFields, List.mem_cons, List.not_mem_nil, or_false, forall_eq_or_imp,
        forall_eq, hget]
      refine ⟨⟨_, rfl, isAuditScalar_eventType _⟩, ⟨_, rfl, ?_⟩, ⟨_, rfl, isAuditScalar_role _⟩,
        ⟨_, rfl, ?_⟩⟩
      · rw [h.actorId, isAuditScalar, actor.actorId_nonblank, decide_eq_true hactor]
        rfl
      · rw [h.authMethod, isAuditScalar, actor.authMethod_nonblank, decide_eq_true hauth]
        rfl
    have hchain : verifyChainHash H (sortDict (payloadOf e details)) e.previousHash e.eventHash =
        .ok () := by
      have hbody : (auditChainFields.map fun k => (k, get (sortDict (payloadOf e details)) k)) =
          e.body (Json.obj details).sortKeys := by
        simp only [auditChainFields, List.map_cons, List.map_nil, hget]
        rfl
      rw [verifyChainHash_eq_ok, hbody]
      exact chainHash_eq_ok.mp ((chainHash_sortKeys e _ _).trans h.eventHash)
    obtain ⟨result, hresult⟩ := serializeEvent_ok (payload_schema e details) hidentity hscalars
      (payload_fields e details hprevious) hchain hcontent (h.findingId ▸ h.scalars.1)
    exact ⟨_, result, hloads, hresult⟩

end Rows

/-! ### Entries -/

/-- What an event is made from. -/
structure Entry (F : Type) where
  findingId : Text
  eventType : EventType
  actor : ActorContext
  details : Fields F
  now : F
  previousHash : Text
  eventSequence : ℕ

omit [PyFloat F] in
def Entry.body (x : Entry F) : Fields F :=
  eventBody x.findingId x.eventType x.actor.actorId x.actor.role x.actor.authMethod x.now
    (.obj x.details) x.previousHash

/-- The names of the actor are short and the payload fits in a message. -/
def Entry.Fits (x : Entry F) : Prop :=
  x.actor.actorId.length ≤ 128 ∧ x.actor.authMethod.length ≤ 128 ∧
    payloadLength x.body x.eventSequence ≤ maxMessageBytes

instance (x : Entry F) : Decidable x.Fits := inferInstanceAs (Decidable (_ ∧ _))

omit [PyFloat F] in
/-- The finding, the type and the details of the event that a phase is to commit, if the finding
lets it. -/
def phaseEntry (db : Db F) (p : Pending F) : Option (Text × EventType × Fields F) :=
  match p.phase with
  | .create args _ =>
    match db.findings.find? args.findingId.text with
    | none => some (args.findingId.text, .findingCreated, args.details)
    | some _ => none
  | .reassess args => do
    let row ← db.findings.find? args.findingId.text
    guard (row.controlId = args.controlId.text ∧ row.assetId = args.assetId.text)
    return (args.findingId.text, .findingReassessed, args.details)
  | .mutate change => do
    let m := change.mutation p.actor p.recordId
    let row ← db.findings.find? m.findingId
    guard (row.status ∈ m.allowedStatuses)
    return (m.findingId, m.eventType, m.details)
  | .commitEvidence args stored finding => do
    let row ← db.findings.find? finding.findingId
    guard (row.status = .inProgress)
    return (finding.findingId, .evidenceSubmitted, args.details (evidenceId p.recordId) stored)
  | .duplicate _ _ | .persist _ _ => none

omit [PyFloat F] in
def entry? (s : Sys F S) (a : Action F) : Option (Entry F) := do
  let (p, stamp) ← s.taken a
  let (k, type, details) ← phaseEntry s.db p
  return ⟨k, type, p.actor, details, stamp.now, chainedHash (s.db.eventsOf k),
    nextSequence (s.db.eventsOf k)⟩

/-- The event that a step is to commit fits. -/
def EntryFits (s : Sys F S) (a : Action F) : Prop := ∀ x ∈ entry? s a, x.Fits

instance (s : Sys F S) (a : Action F) : Decidable (EntryFits s a) := by
  unfold EntryFits
  infer_instance

/-! ### Commits -/

/-- Details without floats. -/
def Plainly (details : Fields F) : Prop := (Json.obj details).all Audit.finiteNode = true

/-- Every finding has a name that the consumers accept. -/
def Named (db : Db F) : Prop :=
  ∀ k row, db.findings.find? k = some row → blank k = false ∧ k.length ≤ 128

/-- A phase changes nothing or logs the event of its entry. -/
theorem commits_entry {db db' : Db F} {p : Pending F} {stamp : Stamp F}
    (h : Governance.Effect H db p stamp db') (hs : ScalarRows db) (hnamed : Named db) : db' = db ∨
    ∃ k type details e, phaseEntry db p = some (k, type, details) ∧
      Logged H db db' k type p.actor details stamp.now e ∧ Readable details ∧ Plainly details ∧
      blank k = false ∧ k.length ≤ 128 := by
  cases h with
  | none => exact .inl rfl
  | created args upsert e phase fresh findings records logged scalars =>
    refine .inr ⟨_, _, _, e, ?_, logged, args.readable scalars.1 scalars.2, ?_,
      args.findingId.nonblank, args.findingId.short⟩
    · rw [phaseEntry, phase]
      simp only [fresh]
    · simp [Plainly, FindingArgs.details, all, allFields, allField, Audit.finiteNode]
  | reassessed args row e phase found identity findings records logged =>
    obtain ⟨hcontrol, hasset⟩ := hs _ row found
    refine .inr ⟨_, _, _, e, ?_, logged,
      args.readable (identity.1 ▸ hcontrol) (identity.2 ▸ hasset), ?_, hnamed _ row found⟩
    · rw [phaseEntry, phase]
      simp [found, identity]
    · simp [Plainly, FindingArgs.details, all, allFields, allField, Audit.finiteNode]
  | mutated change m row e phase mutation found status findings records logged readable =>
    subst mutation
    refine .inr ⟨_, _, _, e, ?_, logged, readable, ?_, hnamed _ row found⟩
    · rw [phaseEntry, phase]
      simp [found, status]
    · cases change <;>
        simp [Plainly, Change.mutation, all, allFields, allField, Audit.finiteNode]
  | submitted args stored finding row e phase found status findings records logged readable =>
    refine .inr ⟨_, _, _, e, ?_, logged, readable, ?_, hnamed _ row found⟩
    · rw [phaseEntry, phase]
      simp [found, status]
    · simp [Plainly, EvidenceArgs.details, all, allFields, allField, Audit.finiteNode]

theorem named_next {db db' : Db F} {p : Pending F} {stamp : Stamp F} (h : Governance.Effect H db p stamp db')
    (hnamed : Named db) : Named db' := by
  intro k row' hrow'
  have hstep := h.row hrow'
  cases hrow : db.findings.find? k with
  | some row => exact hnamed k row hrow
  | none =>
    rw [hrow] at hstep
    cases hstep with
    | created args upsert phase key =>
      subst key
      exact ⟨args.findingId.nonblank, args.findingId.short⟩

/-- The hash that a chain ends in is empty or one of the digests. -/
theorem endHash_isHex {k : Text} {events : List (Event F)} (h : Chain H k events) :
    ((endHash events).isEmpty || isHex 64 (endHash events)) = true := by
  cases h with
  | nil => rfl
  | @snoc events e hchain hlast =>
    obtain ⟨details, -, hhash⟩ := hlast.hashed
    obtain ⟨text, bytes, -, -, hdigest⟩ := chainHash_eq_ok.mp hhash
    have hhex : isHex 64 e.eventHash = true := by
      rw [← hdigest, isHex, decide_eq_true (H.hexdigest_length bytes), Bool.true_and,
        List.all_eq_true]
      exact H.isLowerHex_hexdigest bytes
    rw [endHash, List.getLast?_concat]
    simp only [hhex, Bool.or_true]

/-- The rows of an event are accepted exactly when its entry fits. -/
theorem rows_accepted_iff {events : List (Event F)} {k : Text} {type : EventType}
    {actor : ActorContext} {details : Fields F} {now : F} {e : Event F} {o : OutboxRow F}
    {x : AuditExport F} (h : EventRows H events k type actor details now e o x)
    (hchain : Chain H k events) (hdetails : Readable details) (hplain : Plainly details)
    (hk : blank k = false ∧ k.length ≤ 128) : (OutboxAccepts H o ∧ ArchiveAccepts H x) ↔
      (⟨k, type, actor, details, now, chainedHash events, nextSequence events⟩ : Entry F).Fits := by
  have hbody : e.body (.obj details) = (⟨k, type, actor, details, now, chainedHash events,
      nextSequence events⟩ : Entry F).body := by
    rw [Event.body, Entry.body, h.findingId, h.eventType, h.actorId, h.actorRole, h.authMethod,
      h.occurredAt, h.previousHash]
  have hsequence : 1 ≤ e.eventSequence := by
    rw [h.eventSequence, hchain.nextSequence]
    omega
  have hprevious : (e.previousHash.isEmpty || isHex 64 e.previousHash) = true := by
    rw [h.previousHash, hchain.chainedHash]
    exact endHash_isHex hchain
  have hne : k ≠ [] := by
    rintro rfl
    cases hk.1
  have houtbox := outbox_accepts_iff h hdetails hk.1 hsequence
  have harchive := archive_accepts_iff h hdetails hplain ⟨hne, hk.2⟩ hsequence hprevious
  rw [hbody, h.eventSequence] at houtbox harchive
  constructor
  · rintro ⟨ho, hx⟩
    have hsize := houtbox.mp ho
    obtain ⟨hactor, hauth⟩ := (harchive hsize).mp hx
    exact ⟨hactor, hauth, hsize⟩
  · rintro ⟨hactor, hauth, hsize⟩
    exact ⟨houtbox.mpr hsize, (harchive hsize).mpr ⟨hactor, hauth⟩⟩

/-- Every row of both queues is accepted by its consumer. -/
def Accepted (H : Digest) (db : Db F) : Prop :=
  (∀ o ∈ db.governanceOutbox.rows, OutboxAccepts H o) ∧
    ∀ x ∈ db.auditExports.rows, ArchiveAccepts H x

/-- What a run keeps beside the acceptance of its rows. -/
structure Deliveries (H : Digest) (db : Db F) : Prop where
  log : LogInvariant H db
  named : Named db
  accepted : Accepted H db

theorem deliveries_empty : Deliveries H (Db.empty : Db F) where
  log := logInvariant_empty
  named := by
    intro k row hrow
    cases hrow
  accepted := by
    constructor
    · intro o ho
      cases ho
    · intro x hx
      cases hx

theorem deliveries_next {db db' : Db F} {p : Pending F} {stamp : Stamp F}
    (heffect : Governance.Effect H db p stamp db') (h : Deliveries H db)
    (hfits : ∀ k type details, phaseEntry db p = some (k, type, details) →
      (⟨k, type, p.actor, details, stamp.now, chainedHash (db.eventsOf k),
        nextSequence (db.eventsOf k)⟩ : Entry F).Fits) : Deliveries H db' := by
  refine ⟨logInvariant_next heffect h.log, named_next heffect h.named, ?_⟩
  rcases commits_entry heffect h.log.scalars h.named with
    rfl | ⟨k, type, details, e, hentry, hlogged, hdetails, hplain, hk⟩
  · exact h.accepted
  · obtain ⟨o, x, hrows, houtbox, hexports⟩ := hlogged.rows
    obtain ⟨ho, hx⟩ := (rows_accepted_iff hrows (h.log.chains k) hdetails hplain hk).mpr
      (hfits k type details hentry)
    rw [Accepted, houtbox, hexports]
    exact ⟨List.forall_mem_append.mpr ⟨h.accepted.1, by simpa using ho⟩,
      List.forall_mem_append.mpr ⟨h.accepted.2, by simpa using hx⟩⟩

/-- In every run whose entries fit, both consumers accept all that the core has committed. -/
theorem committed_accepted (H : Digest) (store : EvidenceStore S) (objects : S)
    (actions : List (Action F))
    (hfits : (governance H store).Along EntryFits (Sys.init objects) actions) :
    Accepted H ((governance H store).run (Sys.init objects) actions).db := by
  have hrun := hfits.run_invariant (I := fun s => s.Sound ∧ Deliveries H s.db) ?_
    ⟨sound_init objects, deliveries_empty⟩
  · exact hrun.2.accepted
  · refine next_keeps ?_
    intro s a p stamp db' hC htaken _ heffect h
    refine deliveries_next heffect h fun k type details hentry => hC _ ?_
    simp only [ entry?, htaken, Option.bind_eq_bind, Option.bind_some, hentry]
    rfl

/-- A finding is created and assessed by an actor with a short name. -/
theorem committed_accepted_created :
    Accepted sha256 (governanceCore.run governanceStart
      (performed 0 analyst createF1 ++ performed 1 analyst assessF1)).db :=
  committed_accepted sha256 (memoryEvidenceStore sha256) Table.empty _ (by decide +kernel)

/-- An actor with a name of 129 letters. -/
def longNamed : ActorContext :=
  ⟨List.replicate 129 (ofChar 'a'), .analyst, lit "oidc", by decide, not_blank_oidc⟩

/-- The archive refuses the event of the finding that this actor creates. -/
theorem long_name_refused :
    ¬ Accepted sha256 (governanceCore.run governanceStart (performed 0 longNamed createF1)).db := by
  have hrefused : ((governanceCore.run governanceStart (performed 0 longNamed createF1)).db.auditExports.rows.map
      fun x => ((loads x.payloadJson : Except PyError (Json Tick)).toOption.map fun event =>
        (serializeEvent sha256 event).toOption.isSome)) = [some false] := by decide +kernel
  rintro ⟨-, h⟩
  obtain ⟨x, hx, hvalue⟩ := List.mem_map.mp (hrefused ▸ List.mem_singleton_self _)
  obtain ⟨event, result, hevent, hresult⟩ := h x hx
  rw [hevent] at hvalue
  simp [Except.toOption, hresult] at hvalue

end SentinelGRC.Delivery
