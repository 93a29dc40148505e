import SentinelGRC.Governance.EventLog
import SentinelGRC.Governance.LegacyEvents
import SentinelGRC.Python.Decimal
import SentinelGRC.Python.JsonRead

/-!
The constructor of the governance core on a database that is there already. It brings the schema
up to date, copies the finding and the sequence of each event into the outbox, numbers the events
and adds an audit export for each. The index on the sequences is asked for before their column is
added, and the copy is made before the events have their numbers.
-/

namespace SentinelGRC.Governance

open Python Json Store

variable {F : Type}

/-! ### Stored tables -/

/-- A row of `governance_outbox`. The columns that came later are `NULL` in the rows of a table
that they are added to. -/
structure OutboxEntry where
  outboxId : Text
  eventId : Text
  findingId : Option Text
  eventSequence : Option ℤ

/-- A row of `audit_exports`, with the columns that the constructor inserts. -/
structure ExportEntry (F : Type) where
  exportId : Text
  eventId : Text
  findingId : Text
  eventSequence : ℤ
  payloadJson : Text
  createdAt : F
  availableAt : F

/-- `outbox_id` is the primary key; `event_id` is unique. -/
def OutboxEntry.clash (q r : OutboxEntry) : Bool :=
  q.outboxId == r.outboxId || q.eventId == r.eventId

/-- Equal values in both columns of an index. `NULL` is equal to nothing. -/
def OutboxEntry.samePlace (q r : OutboxEntry) : Bool :=
  q.findingId.isSome && q.eventSequence.isSome && q.findingId == r.findingId &&
    q.eventSequence == r.eventSequence

def ExportEntry.clash (q r : ExportEntry F) : Bool :=
  q.exportId == r.exportId || q.eventId == r.eventId ||
    (q.findingId == r.findingId && q.eventSequence == r.eventSequence)

/-- The database that the constructor finds. A table that is not there yet is created empty. -/
structure StoredDb (F : Type) where
  /-- There is an index of the name `idx_events_finding`. -/
  eventsIndex : Bool
  /-- `governance_events` has the column `event_sequence`; without it the sequences of its rows
  are no part of the database. -/
  sequenceColumn : Bool
  governanceEvents : EventTable F
  governanceOutbox : Unique OutboxEntry OutboxEntry.clash
  auditExports : Unique (ExportEntry F) ExportEntry.clash

/-! ### The schema -/

/-- `CREATE INDEX IF NOT EXISTS idx_events_finding ON governance_events(finding_id,
event_sequence)`. The columns are looked up only when there is no index of the name. -/
def createEventsIndex (db : StoredDb F) : Except PyError (StoredDb F) :=
  if db.eventsIndex then .ok db
  else if db.sequenceColumn then .ok { db with eventsIndex := true }
  else .error .operationalError

theorem distinct_numbered (n : ℤ) (events : EventTable F) :
    ((events.rows.map (·.numbered n)).map EventRow.eventId).Nodup := by
  rw [List.map_map]
  exact events.distinct

/-- The same sequence for all events. -/
def numberAll (n : ℤ) (events : EventTable F) : EventTable F :=
  ⟨events.rows.map (·.numbered n), distinct_numbered n events⟩

/-- `ALTER TABLE governance_events ADD COLUMN event_sequence INTEGER NOT NULL DEFAULT 0`. -/
def addSequenceColumn (db : StoredDb F) : StoredDb F :=
  if db.sequenceColumn then db
  else { db with sequenceColumn := true, governanceEvents := numberAll 0 db.governanceEvents }

/-- What the `UPDATE` of `governance_outbox` makes of a row. -/
def filled (events : EventTable F) (r : OutboxEntry) : OutboxEntry :=
  if r.findingId = none ∨ r.eventSequence = none then
    { r with
      findingId := (events.find? r.eventId).map EventRow.findingId
      eventSequence := (events.find? r.eventId).map EventRow.eventSequence }
  else r

theorem clash_filled (events : EventTable F) (q r : OutboxEntry) :
    (filled events q).clash (filled events r) = q.clash r := by
  have hkept : ∀ r : OutboxEntry, (filled events r).outboxId = r.outboxId ∧
      (filled events r).eventId = r.eventId := by
    intro r
    unfold filled
    split_ifs <;> exact ⟨rfl, rfl⟩
  rw [OutboxEntry.clash, OutboxEntry.clash, (hkept q).1, (hkept q).2, (hkept r).1, (hkept r).2]

/-- `UPDATE governance_outbox SET finding_id = ..., event_sequence = ...`. -/
def fillOutbox (db : StoredDb F) : StoredDb F :=
  { db with governanceOutbox :=
      db.governanceOutbox.map (filled db.governanceEvents) (clash_filled db.governanceEvents) }

/-- `CREATE UNIQUE INDEX IF NOT EXISTS idx_governance_outbox_finding_sequence`. Where the index is
there already, it is the `UPDATE` that fails. -/
def createOutboxIndex (db : StoredDb F) : Except PyError (StoredDb F) :=
  if db.governanceOutbox.rows.Pairwise fun q r => q.samePlace r = false then .ok db
  else .error .integrityError

/-! ### Audit exports -/

def exportPayload (r : EventRow F) (details : Json F) : Fields F :=
  [(lit "finding_id", .str r.findingId), (lit "event_type", .str r.eventType),
    (lit "actor_id", .str r.actorId), (lit "actor_role", .str r.actorRole),
    (lit "auth_method", .str r.authMethod), (lit "occurred_at", .float (.finite r.occurredAt)),
    (lit "details", details), (lit "previous_hash", .str r.previousHash),
    (lit "event_id", .str r.eventId), (lit "event_sequence", .int r.eventSequence),
    (lit "event_hash", .str r.eventHash)]

/-- `ORDER BY finding_id, event_sequence`. -/
def exportLe (q r : EventRow F) : Prop :=
  if q.findingId = r.findingId then q.eventSequence ≤ r.eventSequence
  else keyLe q.findingId r.findingId = true

instance : DecidableRel (exportLe (F := F)) := fun q r =>
  inferInstanceAs (Decidable (if q.findingId = r.findingId then q.eventSequence ≤ r.eventSequence
    else keyLe q.findingId r.findingId = true))

variable [PyFloat F]

/-- A turn of `_backfill_audit_exports`; `INSERT OR IGNORE` leaves out a row that clashes. -/
def exportEvent (H : Digest) (exports : Unique (ExportEntry F) ExportEntry.clash) (r : EventRow F) :
    Except PyError (Unique (ExportEntry F) ExportEntry.clash) := do
  let details ← loads r.detailsJson
  let name ← encodeUtf8 (lit "audit-export:" ++ r.eventId)
  let payloadJson ← dumps compact (.obj (exportPayload r details))
  let entry : ExportEntry F := ⟨(H.hexdigest name).take 32, r.eventId, r.findingId,
    r.eventSequence, payloadJson, r.occurredAt, r.occurredAt⟩
  return (exports.insert? entry).getD exports

/-- `_backfill_audit_exports`. -/
def backfillAuditExports (H : Digest) (events : EventTable F)
    (exports : Unique (ExportEntry F) ExportEntry.clash) :
    Except PyError (Unique (ExportEntry F) ExportEntry.clash) :=
  (events.rows.insertionSort exportLe).foldlM (exportEvent H) exports

/-! ### The constructor -/

/-- The statements up to the backfills. -/
def upgradeSchema (db : StoredDb F) : Except PyError (StoredDb F) := do
  let db ← createEventsIndex db
  createOutboxIndex (fillOutbox (addSequenceColumn db))

/-- `_backfill_audit_exports` after `_backfill_event_sequences`. -/
def backfilled (H : Digest) (db : StoredDb F) (events : EventTable F) :
    Except PyError (StoredDb F) := do
  let auditExports ← backfillAuditExports H events db.auditExports
  return { db with governanceEvents := events, auditExports }

/-! ### Databases from before the sequences -/

/-- The hashed part of an event. -/
def EventRow.body (r : EventRow F) (previous : Text) (details : Json F) : Fields F :=
  [(lit "finding_id", .str r.findingId), (lit "event_type", .str r.eventType),
    (lit "actor_id", .str r.actorId), (lit "actor_role", .str r.actorRole),
    (lit "auth_method", .str r.authMethod), (lit "occurred_at", .float (.finite r.occurredAt)),
    (lit "details", details), (lit "previous_hash", .str previous)]

/-- A valid hash chain after a hash, as `verify_event_chain` checks it. -/
def HashChain (H : Digest) : Text → List (EventRow F) → Prop
  | _, [] => True
  | previous, r :: rest => r.previousHash = previous ∧
    (∃ details, loads r.detailsJson = .ok details ∧
      chainHash H previous (r.body previous details) = .ok r.eventHash) ∧
    HashChain H r.eventHash rest

/-- A database that was written before events had a sequence. Texts come decoded from UTF-8, and
row identifiers have 64 bits. -/
structure Legacy (H : Digest) (db : StoredDb F) : Prop where
  column : db.sequenceColumn = false
  chains : ∀ k, ∃ chain, chain.Perm (rowsOf db.governanceEvents k) ∧ HashChain H [] chain
  hashes : (db.governanceEvents.rows.map EventRow.eventHash).Nodup
  decoded : ∀ r ∈ db.governanceEvents.rows, Scalar r.eventId
  few : db.governanceEvents.rows.length < 2 ^ 63
  outbox : ∀ r ∈ db.governanceOutbox.rows, r.findingId = none ∧ r.eventSequence = none ∧
    ∃ e ∈ db.governanceEvents.rows, e.eventId = r.eventId
  exports : db.auditExports.rows = []

/-- Every event has its place in the chain of its finding, and the rows made for an event have its
finding and its sequence. -/
structure Agrees (before : EventTable F) (after : StoredDb F) : Prop where
  positions : ∀ k chain, Linked [] chain → chain.Perm (rowsOf before k) →
    (rowsOf after.governanceEvents k).Perm (chain.mapIdx fun i r => r.numbered (i + 1))
  outbox : ∀ r ∈ after.governanceOutbox.rows, ∃ e ∈ after.governanceEvents.rows,
    e.eventId = r.eventId ∧ r.findingId = some e.findingId ∧ r.eventSequence = some e.eventSequence
  exports : ∀ r ∈ after.auditExports.rows, ∃ e ∈ after.governanceEvents.rows,
    e.eventId = r.eventId ∧ r.findingId = e.findingId ∧ r.eventSequence = e.eventSequence

section Rows
variable {H : Digest} {previous : Text} {chain : List (EventRow F)} {r : EventRow F}

theorem HashChain.linked (h : HashChain H previous chain) : Linked previous chain := by
  induction chain generalizing previous with
  | nil => trivial
  | cons r rest ih => exact ⟨h.1, ih h.2.2⟩

theorem HashChain.mem (h : HashChain H previous chain) (hr : r ∈ chain) :
    (∃ details : Json F, loads r.detailsJson = .ok details) ∧ r.eventHash ≠ [] := by
  induction chain generalizing previous with
  | nil => cases hr
  | cons q rest ih =>
    obtain ⟨-, ⟨details, hdetails, hhash⟩, hrest⟩ := h
    rcases List.mem_cons.mp hr with rfl | hr
    · refine ⟨⟨details, hdetails⟩, ?_⟩
      obtain ⟨text, -, hhash⟩ := bind_eq_ok.mp hhash
      obtain ⟨bytes, -, hhash⟩ := bind_eq_ok.mp hhash
      have hlength := H.hexdigest_length bytes
      rw [Except.ok.inj hhash] at hlength
      intro hempty
      rw [hempty] at hlength
      cases hlength
    · exact ih hrest hr

/-! ### The exports -/

/-- What an export takes from its event. -/
def ExportEntry.IsOf (q : ExportEntry F) (r : EventRow F) : Prop :=
  r.eventId = q.eventId ∧ q.findingId = r.findingId ∧ q.eventSequence = r.eventSequence

/-- What makes an event fit for an export. -/
structure Exportable (F : Type) [PyFloat F] (r : EventRow F) : Prop where
  details : ∃ details : Json F, loads r.detailsJson = .ok details
  decoded : Scalar r.eventId
  few : r.eventSequence.natAbs < 2 ^ 63

omit [PyFloat F] in
theorem printable_exportPayload {details : Json F} (hdetails : Printable details)
    (hfew : r.eventSequence.natAbs < 2 ^ 63) : Printable (.obj (exportPayload r details)) := by
  have hint : (natText r.eventSequence.natAbs).length ≤ intMaxStrDigits := by
    have hdigits : (natText r.eventSequence.natAbs).length ≤ 19 :=
      length_natText_le (by decide) (hfew.trans (by decide))
    exact hdigits.trans (by decide)
  have hnode : ∀ f ∈ exportPayload r details, f.2.all printableNode = true := by
    have hrest : ∀ f : Text × Json F, f ∈ exportPayload r details → (∃ t, f.2 = .str t) ∨
        (∃ x, f.2 = .float x) ∨ f.2 = .int r.eventSequence ∨ f.2 = details := by
      simp [exportPayload]
    intro f hf
    rcases hrest f hf with ⟨t, ht⟩ | ⟨x, hx⟩ | hn | hd
    · rw [ht]
      rfl
    · rw [hx]
      rfl
    · rw [hn]
      exact decide_eq_true hint
    · rw [hd]
      exact hdetails
  rw [Printable, all, Bool.and_eq_true, allFields_eq_all, List.all_eq_true]
  refine ⟨rfl, fun f hf => ?_⟩
  rw [allField_eq]
  exact hnode f hf

theorem exportEvent_eq_ok (H : Digest) (exports : Unique (ExportEntry F) ExportEntry.clash)
    (h : Exportable F r) : ∃ entry : ExportEntry F, entry.IsOf r ∧
      exportEvent H exports r = .ok ((exports.insert? entry).getD exports) := by
  obtain ⟨details, hdetails⟩ := h.details
  have hname : Scalar (lit "audit-export:" ++ r.eventId) :=
    scalar_append.mpr ⟨by decide, h.decoded⟩
  have hpayload := printable_exportPayload (printable_of_loads hdetails) h.few
  refine ⟨⟨_, r.eventId, r.findingId, r.eventSequence, _, r.occurredAt, r.occurredAt⟩,
    ⟨rfl, rfl, rfl⟩, bind_eq_ok.mpr ⟨details, hdetails, bind_eq_ok.mpr ⟨_,
      encodeUtf8_eq_ok.mpr ⟨hname, rfl⟩, bind_eq_ok.mpr ⟨_, if_pos hpayload, rfl⟩⟩⟩⟩

omit [PyFloat F] in
theorem mem_insert?_getD {exports : Unique (ExportEntry F) ExportEntry.clash}
    {entry q : ExportEntry F} (h : q ∈ ((exports.insert? entry).getD exports).rows) :
    q ∈ exports.rows ∨ q = entry := by
  cases hinsert : exports.insert? entry with
  | none =>
    rw [hinsert] at h
    exact Or.inl h
  | some after =>
    rw [hinsert, Option.getD_some, (Unique.insert?_eq_some.mp hinsert).2] at h
    simpa using h

/-- The exports of events that are fit for one. -/
theorem foldlM_exportEvent (H : Digest) {rows : List (EventRow F)}
    (h : ∀ r ∈ rows, Exportable F r) (exports : Unique (ExportEntry F) ExportEntry.clash) :
    ∃ after, rows.foldlM (exportEvent H) exports = .ok after ∧
      ∀ q ∈ after.rows, q ∈ exports.rows ∨ ∃ r ∈ rows, q.IsOf r := by
  induction rows generalizing exports with
  | nil => exact ⟨exports, rfl, fun q hq => Or.inl hq⟩
  | cons r rest ih =>
    obtain ⟨hr, hrest⟩ := List.forall_mem_cons.mp h
    obtain ⟨entry, hentry, hstep⟩ := exportEvent_eq_ok H exports hr
    obtain ⟨after, hafter, hrows⟩ := ih hrest ((exports.insert? entry).getD exports)
    refine ⟨after, bind_eq_ok.mpr ⟨_, hstep, hafter⟩, fun q hq => ?_⟩
    rcases hrows q hq with hold | ⟨s, hs, hof⟩
    · rcases mem_insert?_getD hold with hold | rfl
      · exact Or.inl hold
      · exact Or.inr ⟨r, List.mem_cons_self, hentry⟩
    · exact Or.inr ⟨s, List.mem_cons_of_mem r hs, hof⟩

end Rows

variable [LinearOrder F]

/-- `GovernanceCore.__init__`, with a bound on the turns of the walk over a chain. -/
def governanceCoreInit (H : Digest) (fuel : ℕ) (db : StoredDb F) :
    Option (Except PyError (StoredDb F)) :=
  match upgradeSchema db with
  | .error e => some (.error e)
  | .ok db => (backfillEventSequences fuel db.governanceEvents).map (backfilled H db)

/-! ### The numbers of a legacy database -/

section Upgrade
variable {H : Digest} {db : StoredDb F}

omit [PyFloat F] [LinearOrder F] in
theorem rowsOf_numberAll (n : ℤ) (events : EventTable F) (k : Text) :
    rowsOf (numberAll n events) k = (rowsOf events k).map (·.numbered n) := by
  rw [rowsOf, rowsOf, numberAll, List.filter_map]
  rfl

omit [PyFloat F] [LinearOrder F] in
theorem linked_numbered (n : ℤ) {hash : Text} {chain : List (EventRow F)} :
    Linked hash (chain.map (·.numbered n)) ↔ Linked hash chain := by
  induction chain generalizing hash with
  | nil => exact Iff.rfl
  | cons r rest ih => exact and_congr_right fun _ => ih

omit [PyFloat F] [LinearOrder F] in
/-- Rows that were not numbered are numbered from one on. -/
theorem Renumbered.bounds {before after : List (EventRow F)} {r : EventRow F}
    (h : Renumbered before after) (hlow : ∃ r ∈ before, r.eventSequence ≤ 0) (hr : r ∈ after) :
    1 ≤ r.eventSequence ∧ r.eventSequence ≤ before.length := by
  have hmem := (h.sequences hlow).subset (List.mem_map_of_mem hr)
  obtain ⟨i, hi, hsequence⟩ := List.mem_map.mp hmem
  have hlt := List.mem_range.mp hi
  rw [← hsequence]
  omega

omit [PyFloat F] [LinearOrder F] in
theorem Renumbered.exists_before {before after : List (EventRow F)} {r : EventRow F}
    (h : Renumbered before after) (hr : r ∈ after) : ∃ q ∈ before, q.numbered 0 = r.numbered 0 := by
  have hmem := List.mem_map_of_mem (f := (·.numbered 0)) hr
  rw [h.unchanged] at hmem
  exact List.mem_map.mp hmem

omit [LinearOrder F] in
theorem Legacy.distinctHashes (h : Legacy H db) (k : Text) :
    DistinctHashes (rowsOf (numberAll 0 db.governanceEvents) k) := by
  have hhashes : (rowsOf (numberAll 0 db.governanceEvents) k).map EventRow.eventHash =
      (rowsOf db.governanceEvents k).map EventRow.eventHash := by
    rw [rowsOf_numberAll, List.map_map]
    rfl
  obtain ⟨chain, hperm, hchain⟩ := h.chains k
  rw [DistinctHashes, hhashes]
  refine List.nodup_cons.mpr ⟨?_, h.hashes.sublist (List.filter_sublist.map _)⟩
  intro hmem
  obtain ⟨r, hr, hempty⟩ := List.mem_map.mp hmem
  exact (hchain.mem (hperm.symm.subset hr)).2 hempty

/-- What the backfill makes of the events of a legacy database. -/
structure Placed (before after : EventTable F) : Prop where
  positions : ∀ k chain, Linked [] chain → chain.Perm (rowsOf before k) →
    (rowsOf after k).Perm (chain.mapIdx fun i r => r.numbered (i + 1))
  bounds : ∀ r ∈ after.rows, 1 ≤ r.eventSequence ∧ r.eventSequence ≤ before.rows.length
  origin : ∀ r ∈ after.rows, ∃ q ∈ before.rows, q.numbered 0 = r.numbered 0

theorem Legacy.exists_placed (h : Legacy H db) : ∃ events,
    (∀ fuel, db.governanceEvents.rows.length ≤ fuel →
      backfillEventSequences fuel (numberAll 0 db.governanceEvents) = some events) ∧
    Placed db.governanceEvents events := by
  obtain ⟨events, hrun, hrenumbered⟩ := backfill_numbers (numberAll 0 db.governanceEvents)
    fun k _ => h.distinctHashes k
  have hlow (k : Text) {q : EventRow F} (hq : q ∈ rowsOf (numberAll 0 db.governanceEvents) k) :
      ∃ r ∈ rowsOf (numberAll 0 db.governanceEvents) k, r.eventSequence ≤ 0 := by
    refine ⟨q, hq, ?_⟩
    rw [rowsOf_numberAll] at hq
    obtain ⟨r, -, rfl⟩ := List.mem_map.mp hq
    exact le_rfl
  refine ⟨events, fun fuel hfuel => hrun fuel (by simpa [numberAll] using hfuel), ?_, ?_, ?_⟩
  · intro k chain hlinked hperm
    have hrows := rowsOf_numberAll 0 db.governanceEvents k
    have hzero : (chain.map (·.numbered 0)).Perm (rowsOf (numberAll 0 db.governanceEvents) k) := by
      rw [hrows]
      exact hperm.map _
    cases chain with
    | nil =>
      have hnone : rowsOf (numberAll 0 db.governanceEvents) k = [] := hzero.nil_eq.symm
      rw [(hrenumbered k).kept (by simp [hnone]), hnone]
      exact List.Perm.nil
    | cons r rest =>
      have hplaced := (hrenumbered k).positions
        (hlow k (hzero.subset (List.mem_map_of_mem List.mem_cons_self))) _
        ((linked_numbered 0).mpr hlinked) hzero
      refine hplaced.trans (List.Perm.of_eq (List.ext_getElem (by simp) fun i hi hi' => ?_))
      rw [List.getElem_mapIdx, List.getElem_mapIdx, List.getElem_map]
      rfl
  · intro r hr
    have hmem : r ∈ rowsOf events r.findingId := mem_rowsOf.mpr ⟨hr, rfl⟩
    obtain ⟨q, hq, -⟩ := (hrenumbered r.findingId).exists_before hmem
    obtain ⟨hone, hle⟩ := (hrenumbered r.findingId).bounds (hlow _ hq) hmem
    refine ⟨hone, hle.trans ?_⟩
    have hlength : (rowsOf (numberAll 0 db.governanceEvents) r.findingId).length ≤
        db.governanceEvents.rows.length := by
      rw [rowsOf_numberAll, List.length_map]
      exact List.length_filter_le _ _
    exact_mod_cast hlength
  · intro r hr
    have hmem : r ∈ rowsOf events r.findingId := mem_rowsOf.mpr ⟨hr, rfl⟩
    obtain ⟨q, hq, hsame⟩ := (hrenumbered r.findingId).exists_before hmem
    rw [rowsOf_numberAll] at hq
    obtain ⟨p, hp, rfl⟩ := List.mem_map.mp hq
    exact ⟨p, (mem_rowsOf.mp hp).1, hsame⟩

/-! ### The upgrade -/

omit [LinearOrder F] in
/-- The events that are numbered are fit for an export. -/
theorem Legacy.exportable (h : Legacy H db) {events : EventTable F}
    (hplaced : Placed db.governanceEvents events) {r : EventRow F} (hr : r ∈ events.rows) :
    Exportable F r := by
  obtain ⟨q, hq, hsame⟩ := hplaced.origin r hr
  obtain ⟨hone, hle⟩ := hplaced.bounds r hr
  have hid : (q.numbered 0).eventId = (r.numbered 0).eventId := by rw [hsame]
  have hjson : (q.numbered 0).detailsJson = (r.numbered 0).detailsJson := by rw [hsame]
  obtain ⟨chain, hperm, hchain⟩ := h.chains q.findingId
  have hmem : q ∈ chain := hperm.symm.subset (mem_rowsOf.mpr ⟨hq, rfl⟩)
  have hfew := h.few
  refine ⟨hjson ▸ (hchain.mem hmem).1, hid ▸ h.decoded q hq, ?_⟩
  omega

omit [LinearOrder F] in
theorem Legacy.backfilled_eq_ok (h : Legacy H db) {events : EventTable F}
    (hplaced : Placed db.governanceEvents events) (upgraded : StoredDb F)
    (hexports : upgraded.auditExports.rows = []) :
    ∃ after, backfilled H upgraded events = .ok after ∧ after.governanceEvents = events ∧
      after.governanceOutbox = upgraded.governanceOutbox ∧
      ∀ q ∈ after.auditExports.rows, ∃ r ∈ events.rows, q.IsOf r := by
  have hsorted : ∀ r ∈ events.rows.insertionSort exportLe, Exportable F r := by
    intro r hr
    exact h.exportable hplaced ((List.perm_insertionSort exportLe _).subset hr)
  obtain ⟨exports, hrun, hrows⟩ := foldlM_exportEvent H hsorted upgraded.auditExports
  refine ⟨_, bind_eq_ok.mpr ⟨exports, hrun, rfl⟩, rfl, rfl, fun q hq => ?_⟩
  rcases hrows q hq with hold | ⟨r, hr, hof⟩
  · rw [hexports] at hold
    cases hold
  · exact ⟨r, (List.perm_insertionSort exportLe _).subset hr, hof⟩

omit [PyFloat F] [LinearOrder F] in
theorem upgradeSchema_of_index (hindex : db.eventsIndex = true) :
    upgradeSchema db = createOutboxIndex (fillOutbox (addSequenceColumn db)) := by
  rw [upgradeSchema, createEventsIndex, if_pos hindex]
  rfl

omit [PyFloat F] [LinearOrder F] in
theorem upgradeSchema_of_no_index (hindex : db.eventsIndex = false)
    (hcolumn : db.sequenceColumn = false) : upgradeSchema db = .error .operationalError := by
  have hcreate : createEventsIndex db = .error .operationalError := by
    rw [createEventsIndex, if_neg (by simp [hindex]), if_neg (by simp [hcolumn])]
  rw [upgradeSchema, hcreate]
  rfl

omit [PyFloat F] [LinearOrder F] in
/-- A row of the outbox gets the sequence that the column is added with. -/
theorem filled_sequence {events : EventTable F} {r : OutboxEntry} {e : EventRow F}
    (hr : r.findingId = none) (he : e ∈ events.rows) (hid : e.eventId = r.eventId) :
    (filled (numberAll 0 events) r).eventSequence = some 0 := by
  have hfind : (numberAll 0 events).find? r.eventId = some (e.numbered 0) :=
    Table.find?_eq_some.mpr ⟨List.mem_map_of_mem he, hid⟩
  rw [filled, if_pos (Or.inl hr), hfind]
  rfl

/-- A database from before the sequences comes out right exactly when an old index has the name of
the new one and the outbox has no rows. -/
theorem governanceCoreInit_agrees_iff (H : Digest) (db : StoredDb F) (h : Legacy H db) :
    (∃ after, (∀ fuel, db.governanceEvents.rows.length ≤ fuel →
        governanceCoreInit H fuel db = some (.ok after)) ∧ Agrees db.governanceEvents after) ↔
      db.eventsIndex = true ∧ db.governanceOutbox.rows = [] := by
  obtain ⟨events, hrun, hplaced⟩ := h.exists_placed
  have hadded : addSequenceColumn db =
      { db with sequenceColumn := true, governanceEvents := numberAll 0 db.governanceEvents } :=
    if_neg (by simp [h.column])
  obtain ⟨done, hdone, hevents, houtbox, hexports⟩ :=
    h.backfilled_eq_ok hplaced (fillOutbox (addSequenceColumn db)) (by rw [hadded]; exact h.exports)
  have hinit {fuel : ℕ} (hfuel : db.governanceEvents.rows.length ≤ fuel)
      (hschema : upgradeSchema db = .ok (fillOutbox (addSequenceColumn db))) :
      governanceCoreInit H fuel db = some (.ok done) := by
    have hnumbers : backfillEventSequences fuel
        (fillOutbox (addSequenceColumn db)).governanceEvents = some events := by
      rw [hadded]
      exact hrun fuel hfuel
    rw [governanceCoreInit, hschema]
    simp only [hnumbers, Option.map_some, hdone]
  constructor
  · rintro ⟨after, hafter, hagrees⟩
    have hafter := hafter _ le_rfl
    cases hindex : db.eventsIndex with
    | false =>
      rw [governanceCoreInit, upgradeSchema_of_no_index hindex h.column] at hafter
      cases hafter
    | true =>
      refine ⟨rfl, List.eq_nil_iff_forall_not_mem.mpr fun r hr => ?_⟩
      have hschema := upgradeSchema_of_index hindex
      by_cases hunique : (fillOutbox (addSequenceColumn db)).governanceOutbox.rows.Pairwise
          fun q r => q.samePlace r = false
      · rw [createOutboxIndex, if_pos hunique] at hschema
        rw [hinit le_rfl hschema] at hafter
        obtain rfl := Except.ok.inj (Option.some.inj hafter)
        obtain ⟨hfinding, -, e, he, hid⟩ := h.outbox r hr
        have hmem : filled (numberAll 0 db.governanceEvents) r ∈ done.governanceOutbox.rows := by
          rw [houtbox, hadded]
          exact List.mem_map_of_mem hr
        obtain ⟨d, hd, -, -, hsequence⟩ := hagrees.outbox _ hmem
        -- The copy was made when every event still had the sequence of the new column.
        rw [filled_sequence hfinding he hid] at hsequence
        rw [hevents] at hd
        have hone := (hplaced.bounds d hd).1
        have hzero := Option.some.inj hsequence
        omega
      · rw [createOutboxIndex, if_neg hunique] at hschema
        rw [governanceCoreInit, hschema] at hafter
        cases hafter
  · rintro ⟨hindex, hempty⟩
    have hnone : (fillOutbox (addSequenceColumn db)).governanceOutbox.rows = [] := by
      rw [hadded]
      exact List.map_eq_nil_iff.mpr hempty
    have hschema : upgradeSchema db = .ok (fillOutbox (addSequenceColumn db)) := by
      rw [upgradeSchema_of_index hindex, createOutboxIndex, if_pos]
      rw [hnone]
      exact List.Pairwise.nil
    refine ⟨done, fun fuel hfuel => hinit hfuel hschema, ?_, ?_, ?_⟩
    · rw [hevents]
      exact hplaced.positions
    · rw [houtbox, hnone]
      exact fun r hr => absurd hr List.not_mem_nil
    · intro q hq
      rw [hevents]
      exact hexports q hq

end Upgrade

/-! ### Two events of one finding -/

def upgradeEvent (eventId previousHash eventHash : Text) : EventRow Tick :=
  ⟨eventId, lit "finding", 0, lit "finding_created", lit "actor", lit "analyst", lit "mfa", 7,
    lit "\x7b\x7d", previousHash, eventHash⟩

def firstHash : Text := lit "abb8f5aa9a5d3881d6a961d5168c589fc7c76ae804bb8ff89b6bc8f81a83cee4"

def secondHash : Text := lit "20c5ba2a536e2318bc9ec0b8d5f906aa70b27da86d1b66f9813670c3ff311d20"

def upgradeRows : List (EventRow Tick) :=
  [upgradeEvent (lit "a") firstHash secondHash, upgradeEvent (lit "b") [] firstHash]

theorem upgradeRows_distinct : (upgradeRows.map EventRow.eventId).Nodup := by decide

theorem upgradeRows_hashes : (upgradeRows.map EventRow.eventHash).Nodup := by decide

theorem upgradeRows_decoded : ∀ r ∈ upgradeRows, Scalar r.eventId := by
  rintro r (_ | ⟨_, _ | ⟨_, hr⟩⟩)
  · exact (by decide : Scalar (lit "a"))
  · exact (by decide : Scalar (lit "b"))
  · cases hr

/-- The events, with an index of the old name and rows in the outbox. -/
def upgradeDb (outbox : Unique OutboxEntry OutboxEntry.clash) : StoredDb Tick :=
  ⟨true, false, ⟨upgradeRows, upgradeRows_distinct⟩, outbox, Unique.empty⟩

theorem hashChain_upgradeRows : HashChain sha256 [] upgradeRows.reverse := by
  have hdetails (r : EventRow Tick) (hr : r.detailsJson = lit "\x7b\x7d") :
      loads r.detailsJson = .ok (.obj [] : Json Tick) := by
    rw [hr]
    rfl
  refine ⟨rfl, ⟨.obj [], hdetails _ rfl, ?_⟩, rfl, ⟨.obj [], hdetails _ rfl, ?_⟩, trivial⟩
  · decide +kernel
  · decide +kernel

theorem legacy_upgradeDb {outbox : Unique OutboxEntry OutboxEntry.clash}
    (h : ∀ r ∈ outbox.rows, r.findingId = none ∧ r.eventSequence = none ∧
      ∃ e ∈ upgradeRows, e.eventId = r.eventId) : Legacy sha256 (upgradeDb outbox) where
  column := rfl
  chains k := by
    by_cases hk : k = lit "finding"
    · subst hk
      exact ⟨upgradeRows.reverse, List.reverse_perm _, hashChain_upgradeRows⟩
    · refine ⟨[], List.Perm.of_eq (List.filter_eq_nil_iff.mpr fun r hr => ?_).symm, trivial⟩
      have hfinding : ∀ r ∈ upgradeRows, r.findingId = lit "finding" := by
        simp [upgradeRows, upgradeEvent]
      rw [hfinding r hr]
      simpa using Ne.symm hk
  hashes := upgradeRows_hashes
  decoded := upgradeRows_decoded
  few := (by decide : upgradeRows.length < 2 ^ 63)
  outbox := h
  exports := rfl

theorem governanceCoreInit_agrees_iff_upgradeDb :
    (∃ after, (∀ fuel, (upgradeDb Unique.empty).governanceEvents.rows.length ≤ fuel →
        governanceCoreInit sha256 fuel (upgradeDb Unique.empty) = some (.ok after)) ∧
      Agrees (upgradeDb Unique.empty).governanceEvents after) ↔
      (upgradeDb Unique.empty).eventsIndex = true ∧
        (upgradeDb Unique.empty).governanceOutbox.rows = [] :=
  governanceCoreInit_agrees_iff sha256 (upgradeDb Unique.empty)
    (legacy_upgradeDb fun _ hr => absurd hr List.not_mem_nil)

def queuedRows : List OutboxEntry :=
  [⟨lit "o-1", lit "a", none, none⟩, ⟨lit "o-2", lit "b", none, none⟩]

theorem queuedRows_apart : queuedRows.Pairwise fun q r => q.clash r = false := by decide

/-- Both events wait in the outbox: they have the same place there until the events are numbered,
and the constructor fails before that. -/
theorem governanceCoreInit_fails_queued :
    Legacy sha256 (upgradeDb ⟨queuedRows, queuedRows_apart⟩) ∧
      ∀ fuel, governanceCoreInit sha256 fuel (upgradeDb ⟨queuedRows, queuedRows_apart⟩) =
        some (.error .integrityError) := by
  refine ⟨legacy_upgradeDb ?_, fun fuel => ?_⟩
  · simp [queuedRows, upgradeRows, upgradeEvent]
  · have hschema : upgradeSchema (upgradeDb ⟨queuedRows, queuedRows_apart⟩) =
        .error .integrityError := by
      rw [upgradeSchema_of_index rfl, createOutboxIndex, if_neg]
      decide
    rw [governanceCoreInit, hschema]

end SentinelGRC.Governance
