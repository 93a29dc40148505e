import SentinelGRC.Governance.Runs
import SentinelGRC.Python.JsonRoundTrip

/-!
The integrity of the event log. The events of a finding are numbered from one and
chained by their hashes; each has one row in the outbox and one in the audit exports,
and the payload in both reads back as the event. Every commit keeps this, in any run.
-/

namespace SentinelGRC.Governance

open Python Json Store Transition

variable {F S : Type} [PyFloat F] {H : Digest}

/-! ### Details and hashes -/

omit [PyFloat F] in
theorem sortFields_body (e : Event F) (v : Json F) :
    sortFields (e.body v) = e.body v.sortKeys := by
  simp only [Event.body, eventBody, sortFields, sortField, sortKeys]

omit [PyFloat F] in
theorem sortFields_payload (e : Event F) (v : Json F) :
    sortFields (eventPayload (e.body v) e.eventId e.eventSequence e.eventHash) =
      eventPayload (e.body v.sortKeys) e.eventId e.eventSequence e.eventHash := by
  simp only [eventPayload, Event.body, eventBody, List.cons_append, List.nil_append, sortFields,
    sortField, sortKeys]

/-- The hash of an event does not depend on the order of the keys in its details. -/
theorem chainHash_sortKeys (e : Event F) (v : Json F) (previousHash : Text) :
    chainHash H previousHash (e.body v.sortKeys) = chainHash H previousHash (e.body v) := by
  have hsort : (Json.obj (e.body v.sortKeys)).sortKeys = (Json.obj (e.body v)).sortKeys := by
    rw [sortKeys_obj, sortKeys_obj, sortDict, sortDict, sortFields_body, sortFields_body,
      sortKeys_sortKeys]
  unfold chainHash
  rw [← dumps_sortKeys, hsort, dumps_sortKeys]

theorem chainHash_eq_ok {previousHash hash : Text} {body : Fields F} :
    chainHash H previousHash body = .ok hash ↔ ∃ text bytes, dumps compact (.obj body) = .ok text ∧
      encodeUtf8 (previousHash ++ text) = .ok bytes ∧ H.hexdigest bytes = hash := by
  constructor
  · intro h
    obtain ⟨text, htext, h⟩ := bind_eq_ok.mp h
    obtain ⟨bytes, hbytes, h⟩ := bind_eq_ok.mp h
    cases h
    exact ⟨text, bytes, htext, hbytes, rfl⟩
  · rintro ⟨text, bytes, htext, hbytes, rfl⟩
    exact bind_eq_ok.mpr ⟨text, htext, bind_eq_ok.mpr ⟨bytes, hbytes, rfl⟩⟩

/-- A text that JSON gave for readable fields reads back as them. -/
theorem loads_readable {st : Style} {fields : Fields F} (h : Readable fields) {text : Text}
    (htext : dumps st (.obj fields) = .ok text) : loads text = .ok (Json.obj fields).sortKeys := by
  have hprintable : Printable (.obj fields) := by
    unfold dumps at htext
    split_ifs at htext with hp
    exact hp
  exact loads_dumps (all_roundTripNode.mpr ⟨hprintable, h.distinct, fun _ => whole_of_scalars h.scalars⟩) htext

/-! ### Chains -/

/-- The hash that the next event must name. -/
def endHash (events : List (Event F)) : Text :=
  match events.getLast? with
  | none => []
  | some e => e.eventHash

/-- An event of a finding that continues the events before it. -/
structure Continues (H : Digest) (k : Text) (events : List (Event F)) (e : Event F) : Prop where
  findingId : e.findingId = k
  eventSequence : e.eventSequence = events.length + 1
  previousHash : e.previousHash = endHash events
  hashed : ∃ details : Json F, loads e.detailsJson = .ok details ∧
    chainHash H e.previousHash (e.body details) = .ok e.eventHash

/-- Events of a finding, each of which continues those before it. -/
inductive Chain (H : Digest) (k : Text) : List (Event F) → Prop
  | nil : Chain H k []
  | snoc {events : List (Event F)} {e : Event F} : Chain H k events → Continues H k events e →
      Chain H k (events ++ [e])

theorem Chain.map_eventSequence {k : Text} {events : List (Event F)} (h : Chain H k events) :
    events.map Event.eventSequence = List.range' 1 events.length := by
  induction h with
  | nil => rfl
  | @snoc events e hchain hlast ih =>
    rw [List.map_append, ih, List.length_append, List.length_singleton, List.range'_concat,
      List.map_singleton, hlast.eventSequence]
    congr 2
    omega

theorem Chain.pairwise {k : Text} {events : List (Event F)} (h : Chain H k events) :
    events.Pairwise fun d e => d.eventSequence < e.eventSequence := by
  rw [← List.pairwise_map (f := Event.eventSequence) (R := (· < ·)), h.map_eventSequence]
  exact List.pairwise_lt_range'

omit [PyFloat F] in
/-- Among events in order the one with the largest number is the last. -/
theorem lastEvent_eq_getLast? : ∀ {events : List (Event F)},
    events.Pairwise (fun d e => d.eventSequence < e.eventSequence) →
      lastEvent events = events.getLast?
  | [], _ => rfl
  | [e], _ => rfl
  | e :: d :: events, h => by
    obtain ⟨hhead, htail⟩ := List.pairwise_cons.mp h
    have ih := lastEvent_eq_getLast? htail
    obtain ⟨last, hlast⟩ : ∃ last, (d :: events).getLast? = some last :=
      ⟨_, List.getLast?_eq_some_getLast (List.cons_ne_nil _ _)⟩
    have hlt := hhead last (List.mem_of_getLast? hlast)
    rw [lastEvent, ih, hlast, List.getLast?_cons_cons, hlast]
    exact if_neg (by omega)

theorem Chain.chainedHash {k : Text} {events : List (Event F)} (h : Chain H k events) :
    chainedHash events = endHash events := by
  rw [Governance.chainedHash, lastEvent_eq_getLast? h.pairwise]
  rfl

theorem foldr_max_concat {ns : List ℕ} {n : ℕ} (h : ∀ m ∈ ns, m ≤ n) :
    (ns ++ [n]).foldr max 0 = n := by
  induction ns with
  | nil => simp
  | cons m ns ih =>
    rw [List.cons_append, List.foldr_cons, ih fun j hj => h j (List.mem_cons_of_mem _ hj)]
    exact max_eq_right (h m List.mem_cons_self)

theorem Chain.nextSequence {k : Text} {events : List (Event F)} (h : Chain H k events) :
    nextSequence events = events.length + 1 := by
  rw [Governance.nextSequence, h.map_eventSequence]
  congr 1
  cases hlength : events.length with
  | zero => rfl
  | succ n =>
    rw [List.range'_concat, foldr_max_concat]
    · omega
    · intro m hm
      have := List.mem_range'_1.mp hm
      omega

theorem Chain.map_previousHash {k : Text} {events : List (Event F)} (h : Chain H k events) :
    events.map Event.previousHash = ([] :: events.map Event.eventHash).dropLast := by
  induction h with
  | nil => rfl
  | @snoc events e hchain hlast ih =>
    rw [List.map_append, ih, List.map_append, List.map_singleton, List.map_singleton,
      ← List.cons_append, List.dropLast_concat, hlast.previousHash, endHash]
    rcases List.eq_nil_or_concat' events with rfl | ⟨init, d, rfl⟩
    · rfl
    · rw [List.getLast?_concat, List.map_append, List.map_singleton, ← List.cons_append,
        List.dropLast_concat]

/-- What `verify_event_chain` has verified leaves it with the last hash. -/
theorem verifyEvents_append {k : Text} {previous : Text} : ∀ {events : List (Event F)},
    verifyEvents H k previous events = .ok true → ∀ rest : List (Event F),
      verifyEvents H k previous (events ++ rest) =
        verifyEvents H k ((events.getLast?.map Event.eventHash).getD previous) rest
  | [], _, _ => rfl
  | e :: events, h, rest => by
    rw [verifyEvents] at h
    obtain ⟨details, hdetails, h⟩ := bind_eq_ok.mp h
    obtain ⟨expected, hexpected, h⟩ := bind_eq_ok.mp h
    by_cases hbad : e.previousHash ≠ previous ∨ e.eventHash ≠ expected
    · rw [if_pos hbad] at h
      cases h
    rw [if_neg hbad] at h
    have ih := verifyEvents_append h rest
    rw [List.cons_append, verifyEvents, hdetails]
    change (chainHash H previous _ >>= _) = _
    rw [hexpected]
    change (if _ then _ else _) = _
    rw [if_neg hbad, ih]
    cases events with
    | nil => rfl
    | cons d events => rw [List.getLast?_cons_cons, List.getLast?_eq_some_getLast (List.cons_ne_nil d events)]; rfl

theorem Chain.verifyEvents {k : Text} {events : List (Event F)} (h : Chain H k events) :
    verifyEvents H k [] events = .ok true := by
  induction h with
  | nil => rfl
  | @snoc events e hchain hlast ih =>
    obtain ⟨details, hdetails, hhash⟩ := hlast.hashed
    have hprevious : (events.getLast?.map Event.eventHash).getD [] = e.previousHash := by
      rw [hlast.previousHash, endHash]
      cases events.getLast? <;> rfl
    rw [verifyEvents_append ih, hprevious, Governance.verifyEvents, hdetails]
    change (chainHash H e.previousHash _ >>= _) = _
    rw [← hlast.findingId]
    change (chainHash H e.previousHash (e.body details) >>= _) = _
    rw [hhash]
    change (if _ then _ else _) = _
    rw [if_neg (by simp)]
    rfl

/-! ### Deliveries -/

/-- Two rows queue an event, with one payload that reads back as the event. -/
structure Queued (e : Event F) (o : OutboxRow F) (x : AuditExport F) : Prop where
  outbox : o.Queues e o.payloadJson
  exported : x.Queues e o.payloadJson
  /-- The details read back are those of the stored event, the other fields its columns. -/
  decodes : ∃ details fields, loads e.detailsJson = .ok details ∧
    loads o.payloadJson = .ok (.obj fields) ∧
    fields.Perm (eventPayload (e.body details) e.eventId e.eventSequence e.eventHash)

theorem EventRows.continues {events : List (Event F)} {k : Text} {type : EventType}
    {actor : ActorContext} {details : Fields F} {now : F} {e : Event F} {o : OutboxRow F}
    {x : AuditExport F} (h : EventRows H events k type actor details now e o x)
    (hchain : Chain H k events) (hdetails : Readable details) : Continues H k events e where
  findingId := h.findingId
  eventSequence := h.eventSequence.trans hchain.nextSequence
  previousHash := h.previousHash.trans hchain.chainedHash
  hashed := ⟨_, loads_readable hdetails h.detailsJson,
    (chainHash_sortKeys e _ _).trans h.eventHash⟩

omit [PyFloat F] in
theorem readable_payload {e : Event F} {details : Fields F} (hdetails : Readable details)
    (hfinding : Scalar e.findingId) (hactor : Scalar e.actorId) (hauth : Scalar e.authMethod)
    (hprevious : Scalar e.previousHash) (hid : Scalar e.eventId) (hhash : Scalar e.eventHash) :
    Readable (eventPayload (e.body (.obj details)) e.eventId e.eventSequence e.eventHash) := by
  have htype : Scalar e.eventType.text := by cases e.eventType <;> exact scalar_lit _
  have hrole : Scalar e.actorRole.text := by cases e.actorRole <;> exact scalar_lit _
  refine readable_of [lit "finding_id", lit "event_type", lit "actor_id", lit "actor_role",
    lit "auth_method", lit "occurred_at", lit "details", lit "previous_hash", lit "event_id",
    lit "event_sequence", lit "event_hash"] rfl (by decide) ?_
  simp only [eventPayload, Event.body, eventBody, List.cons_append, List.nil_append, List.mem_cons,
    List.not_mem_nil, or_false, forall_eq_or_imp, forall_eq]
  exact ⟨readable_str hfinding, readable_str htype, readable_str hactor, readable_str hrole,
    readable_str hauth, ⟨scalar_lit _, rfl, rfl⟩,
    ⟨scalar_lit _, hdetails.scalars, hdetails.distinct⟩, readable_str hprevious, readable_str hid,
    ⟨scalar_lit _, rfl, rfl⟩, readable_str hhash⟩

theorem EventRows.readable_payload {events : List (Event F)} {k : Text} {type : EventType}
    {actor : ActorContext} {details : Fields F} {now : F} {e : Event F} {o : OutboxRow F}
    {x : AuditExport F} (h : EventRows H events k type actor details now e o x)
    (hdetails : Readable details) :
    Readable (eventPayload (e.body (.obj details)) e.eventId e.eventSequence e.eventHash) := by
  obtain ⟨text, bytes, -, hbytes, hhash⟩ := chainHash_eq_ok.mp h.eventHash
  obtain ⟨id, hid⟩ := h.eventId
  obtain ⟨hk, hactor, hauth⟩ := h.scalars
  have hprevious : Scalar e.previousHash := (scalar_append.mp (encodeUtf8_eq_ok.mp hbytes).1).1
  exact Governance.readable_payload hdetails (h.findingId ▸ hk) (h.actorId ▸ hactor)
    (h.authMethod ▸ hauth) hprevious (hid ▸ scalar_of_isLowerHex id.isLowerHex)
    (hhash ▸ scalar_of_isLowerHex (H.isLowerHex_hexdigest bytes))

theorem EventRows.queued {events : List (Event F)} {k : Text} {type : EventType}
    {actor : ActorContext} {details : Fields F} {now : F} {e : Event F} {o : OutboxRow F}
    {x : AuditExport F} (h : EventRows H events k type actor details now e o x)
    (hdetails : Readable details) : Queued e o x := by
  obtain ⟨payloadJson, hout, hexp, hpayload⟩ := h.payload
  have hsame : o.payloadJson = payloadJson := hout.payloadJson
  subst hsame
  refine ⟨hout, hexp, (Json.obj details).sortKeys,
    sortDict (eventPayload (e.body (.obj details)) e.eventId e.eventSequence e.eventHash),
    loads_readable hdetails h.detailsJson, ?_, ?_⟩
  · rw [loads_readable (h.readable_payload hdetails) hpayload, sortKeys_obj]
  · rw [sortDict, sortFields_payload]
    exact List.perm_insertionSort _ _

/-! ### Commits -/

/-- The columns of a finding that a reassessment repeats can be encoded. -/
def ScalarRows (db : Db F) : Prop :=
  ∀ k row, db.findings.find? k = some row → Scalar row.controlId ∧ Scalar row.assetId

omit [PyFloat F] in
theorem RowEffect.identity {p : Pending F} {stamp : Stamp F} {k : Text} {row row' : Finding F}
    (h : RowEffect p stamp k (some row) row') :
    row'.controlId = row.controlId ∧ row'.assetId = row.assetId := by
  cases h with
  | same => exact ⟨rfl, rfl⟩
  | reassessed args q phase key => exact ⟨rfl, rfl⟩
  | submitted args stored finding q phase key status => exact ⟨rfl, rfl⟩
  | mutated change q phase key status =>
    cases change <;> exact ⟨rfl, rfl⟩

theorem scalarRows_next {db db' : Db F} {p : Pending F} {stamp : Stamp F}
    (h : Effect H db p stamp db') (hs : ScalarRows db) : ScalarRows db' := by
  intro k row' hrow'
  cases hrow : db.findings.find? k with
  | some row =>
    have hstep := h.row hrow'
    rw [hrow] at hstep
    rw [hstep.identity.1, hstep.identity.2]
    exact hs k row hrow
  | none =>
    cases h with
    | none =>
      rw [hrow] at hrow'
      cases hrow'
    | created args upsert e phase fresh findings records logged scalars =>
      rw [findings, hrow] at hrow'
      split_ifs at hrow'
      cases hrow'
      exact scalars
    | reassessed args q e phase found identity findings records logged =>
      rw [findings, hrow] at hrow'
      cases hrow'
    | mutated change m q e phase mutation found status findings records logged readable =>
      rw [findings, hrow] at hrow'
      cases hrow'
    | submitted args stored finding q e phase found status findings records logged readable =>
      rw [findings, hrow] at hrow'
      cases hrow'

/-- A phase changes nothing or logs one event, with details that can be read back. -/
theorem Effect.logged {db db' : Db F} {p : Pending F} {stamp : Stamp F}
    (h : Effect H db p stamp db') (hs : ScalarRows db) : db' = db ∨
    ∃ k type details e, Logged H db db' k type p.actor details stamp.now e ∧ Readable details := by
  cases h with
  | none => exact .inl rfl
  | created args upsert e phase fresh findings records logged scalars =>
    exact .inr ⟨_, _, _, e, logged, args.readable scalars.1 scalars.2⟩
  | reassessed args row e phase found identity findings records logged =>
    obtain ⟨hcontrol, hasset⟩ := hs _ row found
    exact .inr ⟨_, _, _, e, logged,
      args.readable (identity.1 ▸ hcontrol) (identity.2 ▸ hasset)⟩
  | mutated change m row e phase mutation found status findings records logged readable =>
    exact .inr ⟨_, _, _, e, logged, readable⟩
  | submitted args stored finding row e phase found status findings records logged readable =>
    exact .inr ⟨_, _, _, e, logged, readable⟩

/-- The events of each finding are chained, and each event is queued. -/
structure LogInvariant (H : Digest) (db : Db F) : Prop where
  chains : ∀ k, Chain H k (db.eventsOf k)
  queues : ∀ e ∈ db.governanceEvents.rows, ∃ o ∈ db.governanceOutbox.rows,
    ∃ x ∈ db.auditExports.rows, Queued e o x
  scalars : ScalarRows db

theorem logInvariant_empty : LogInvariant H (Db.empty : Db F) where
  chains := fun _ => .nil
  queues := fun e he => by cases he
  scalars := fun k row hrow => by cases hrow

theorem Logged.eventsOf {db db' : Db F} {k : Text} {type : EventType} {actor : ActorContext}
    {details : Fields F} {now : F} {e : Event F} (h : Logged H db db' k type actor details now e) (j : Text) :
    db'.eventsOf j = db.eventsOf j ++ if k = j then [e] else [] := by
  obtain ⟨o, x, hrows, -, -⟩ := h.rows
  rw [Db.eventsOf, h.events, List.filter_append, List.filter_singleton, hrows.findingId]
  by_cases hk : k = j <;> simp [hk, Db.eventsOf]

theorem logInvariant_next {db db' : Db F} {p : Pending F} {stamp : Stamp F}
    (heffect : Effect H db p stamp db') (h : LogInvariant H db) : LogInvariant H db' := by
  rcases heffect.logged h.scalars with rfl | ⟨k, type, details, e, hlogged, hdetails⟩
  · exact h
  · obtain ⟨o, x, hrows, houtbox, hexports⟩ := hlogged.rows
    refine ⟨?_, ?_, scalarRows_next heffect h.scalars⟩
    · intro j
      rw [hlogged.eventsOf]
      split_ifs with hk
      · subst hk
        exact (h.chains k).snoc (hrows.continues (h.chains k) hdetails)
      · rw [List.append_nil]
        exact h.chains j
    · intro d hd
      rw [hlogged.events, List.mem_append, List.mem_singleton] at hd
      rw [houtbox, hexports]
      rcases hd with hd | rfl
      · obtain ⟨o', ho', x', hx', hq⟩ := h.queues d hd
        exact ⟨o', List.mem_append_left _ ho', x', List.mem_append_left _ hx', hq⟩
      · exact ⟨o, by simp, x, by simp, hrows.queued hdetails⟩

/-! ### The log -/

/-- The integrity of the events of one finding. -/
structure LogIntact (H : Digest) (db : Db F) (k : Text) : Prop where
  sequences : (db.listEvents k).map Event.eventSequence = List.range' 1 (db.listEvents k).length
  links : (db.listEvents k).map Event.previousHash =
    ([] :: (db.listEvents k).map Event.eventHash).dropLast
  verifies : verifyEventChain H db k = .ok true
  /-- Each event has exactly one row in each queue. -/
  queued : ∀ e ∈ db.listEvents k, ∃ o x, Queued e o x ∧
    (∀ o', o' ∈ db.governanceOutbox.rows ∧ o'.eventId = e.eventId ↔ o' = o) ∧
    ∀ x', x' ∈ db.auditExports.rows ∧ x'.eventId = e.eventId ↔ x' = x

theorem listEvents_eq {db : Db F} {k : Text} (h : Chain H k (db.eventsOf k)) :
    db.listEvents k = db.eventsOf k :=
  List.Pairwise.insertionSort_eq (h.pairwise.imp fun hlt => hlt.le)

omit [PyFloat F] in
theorem OutboxRow.clash_comm (q r : OutboxRow F) : q.clash r = r.clash q := by
  simp only [OutboxRow.clash, Bool.beq_comm]

omit [PyFloat F] in
theorem AuditExport.clash_comm (q r : AuditExport F) : q.clash r = r.clash q := by
  simp only [AuditExport.clash, Bool.beq_comm]

theorem LogInvariant.logIntact {db : Db F} (h : LogInvariant H db) (k : Text) :
    LogIntact H db k where
  sequences := by
    rw [listEvents_eq (h.chains k)]
    exact (h.chains k).map_eventSequence
  links := by
    rw [listEvents_eq (h.chains k)]
    exact (h.chains k).map_previousHash
  verifies := by
    rw [verifyEventChain, listEvents_eq (h.chains k)]
    exact (h.chains k).verifyEvents
  queued := by
    intro e he
    rw [listEvents_eq (h.chains k)] at he
    obtain ⟨o, ho, x, hx, hq⟩ := h.queues e (List.mem_filter.mp he).1
    refine ⟨o, x, hq, ?_, ?_⟩
    · intro o'
      constructor
      · rintro ⟨ho', hid⟩
        apply Unique.eq_of_clash OutboxRow.clash_comm ho' ho
        simp [OutboxRow.clash, hid, hq.outbox.eventId]
      · rintro rfl
        exact ⟨ho, hq.outbox.eventId⟩
    · intro x'
      constructor
      · rintro ⟨hx', hid⟩
        apply Unique.eq_of_clash AuditExport.clash_comm hx' hx
        simp [AuditExport.clash, hid, hq.exported.eventId]
      · rintro rfl
        exact ⟨hx, hq.exported.eventId⟩

/-- In every run from the empty store the log of every finding is intact. -/
theorem governance_logIntact (H : Digest) (store : EvidenceStore S) (objects : S)
    (actions : List (Action F)) (k : Text) :
    LogIntact H ((governance H store).run (Sys.init objects) actions).db k := by
  have h : LogInvariant H ((governance H store).run (Sys.init objects) actions).db :=
    run_keeps logInvariant_empty (fun _ _ _ _ _ heffect h => logInvariant_next heffect h)
      objects actions
  exact h.logIntact k

end SentinelGRC.Governance
