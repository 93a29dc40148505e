import Mathlib.Data.Finset.Card
import SentinelGRC.Connectors.MiniSoarImport

/-!
Runs of the Mini-SOAR bridge over the store and the audit log. A run imports its finding,
appends the audit event that the import answers with, and marks it delivered; it can end after
each of these. Runs may overlap in any way. The outbox holds one row for every finding and
digest that was imported, and the log at most one record for every row, which is there when
the row is delivered.
-/

namespace SentinelGRC.Connectors

open Python Json Store Transition Audit

variable {F T : Type}

/-! ### Runs -/

/-- `CONNECTOR_ACTOR`. -/
def connectorActor : Actor := .name (lit "minisoar-bridge-connector")

/-- What a run has to do next. -/
inductive BridgeTask (F : Type)
  | append (event : AuditEvent F)
  | mark (eventId : Text)

/-- The store, the log, and the runs that are past their import. -/
structure BridgeState (F T : Type) where
  db : ImportDb F T
  log : File
  tasks : List (BridgeTask F)

def BridgeState.empty : BridgeState F T := ⟨ImportDb.empty, none, []⟩

def BridgeState.finish (s : BridgeState F T) (run : ℕ) : BridgeState F T :=
  { s with tasks := s.tasks.eraseIdx run }

variable [PyFloat F]

/-- `AuditLog(audit_path).append_idempotent` on an audit event. -/
def appendEvent (H : Digest) (log : File) (now : Stamp) (event : AuditEvent F) :
    Except PyError (File × Fields F × Bool) :=
  appendIdempotent H log now event.eventId event.eventType connectorActor event.findingId
    (some event.details)

/-- How often a finding was assessed. -/
def assessments : Option (ImportedRow F T) → ℕ
  | none => 0
  | some r => r.reassessmentCount + 1

/-- The tables are those after these imports. -/
structure Imported (imports : Finset (Text × Text)) (db : ImportDb F T) : Prop where
  outbox : ∀ findingId evidenceHash, (findingId, evidenceHash) ∈ imports ↔
    ∃ r ∈ db.outbox.rows, r.findingId = findingId ∧ r.evidenceHash = evidenceHash
  findings : ∀ findingId,
    (imports.filter fun i => i.1 = findingId).card = assessments (db.findings.find? findingId)

variable {H : Digest} {imports : Finset (Text × Text)} {db db' : ImportDb F T}
  {finding : ExternalFinding F} {evidenceHash : Text} {current : T}

omit [PyFloat F] in
theorem assessments_storedImport (found : Option (ImportedRow F T)) :
    assessments (some (storedImport finding evidenceHash current found)) = assessments found + 1 := by
  cases found <;> rfl

omit [PyFloat F] in
theorem Imported.queued {r : AuditOutboxRow F T} (h : Imported imports db)
    (hnew : db.import? finding.findingId evidenceHash = none)
    (hq : Queued H db db' finding evidenceHash current r) :
    Imported (insert (finding.findingId, evidenceHash) imports) db' := by
  obtain ⟨action, seed, hr⟩ := hq.row
  have hkey : r.findingId = finding.findingId ∧ r.evidenceHash = evidenceHash := by
    rw [hr]
    exact ⟨rfl, rfl⟩
  have hfresh : (finding.findingId, evidenceHash) ∉ imports := by
    rw [h.outbox]
    rintro ⟨q, hq, hsame⟩
    exact import?_eq_none.mp hnew q hq hsame
  constructor
  · intro findingId hash
    rw [Finset.mem_insert, h.outbox, hq.outbox, Prod.mk.injEq]
    constructor
    · rintro (⟨rfl, rfl⟩ | ⟨q, hq, hsame⟩)
      · exact ⟨r, by simp, hkey⟩
      · exact ⟨q, List.mem_append_left _ hq, hsame⟩
    · rintro ⟨q, hmem, hsame⟩
      rcases List.mem_append.mp hmem with hmem | hmem
      · exact .inr ⟨q, hmem, hsame⟩
      · obtain rfl := List.mem_singleton.mp hmem
        exact .inl ⟨hsame.1.symm.trans hkey.1, hsame.2.symm.trans hkey.2⟩
  · intro findingId
    rw [hq.findings, Finset.filter_insert]
    split_ifs with hid
    · obtain rfl : finding.findingId = findingId := hid
      have hout : (finding.findingId, evidenceHash) ∉
          imports.filter fun i => i.1 = finding.findingId :=
        fun hmem => hfresh (Finset.mem_filter.mp hmem).1
      rw [Finset.card_insert_of_notMem hout, assessments_storedImport, h.findings]
    · exact h.findings findingId

omit [PyFloat F] in
/-- Replaying an import adds none. -/
theorem Imported.replayed {r : AuditOutboxRow F T} (h : Imported imports db)
    (hfound : db.import? finding.findingId evidenceHash = some r) :
    insert (finding.findingId, evidenceHash) imports = imports := by
  rw [Finset.insert_eq_self, h.outbox]
  exact ⟨r, List.mem_of_find?_eq_some hfound,
    AuditOutboxRow.isImport_iff.mp (List.find?_some hfound)⟩

omit [PyFloat F] in
/-- Marking an event keeps what the tables say about the imports. -/
theorem Imported.marked {eventId : Text} (h : Imported imports db)
    (hmark : markExternalFindingAuditDelivered db eventId current = .ok db') :
    Imported imports db' ∧ db'.outbox.rows =
      db.outbox.rows.map (AuditOutboxRow.markDelivered eventId current) := by
  obtain ⟨-, -, hmark⟩ := bind_eq_ok.mp hmark
  split_ifs at hmark
  obtain rfl := Except.ok.inj hmark
  refine ⟨⟨fun findingId hash => ?_, h.findings⟩, rfl⟩
  rw [h.outbox]
  constructor
  · rintro ⟨r, hr, hsame⟩
    exact ⟨_, List.mem_map_of_mem hr, hsame⟩
  · rintro ⟨q, hq, hsame⟩
    obtain ⟨r, hr, rfl⟩ := List.mem_map.mp hq
    exact ⟨r, hr, hsame⟩

/-- What the log is given for an audit event. -/
def AuditEvent.content (event : AuditEvent F) : Json F :=
  Audit.content (.str event.eventId) event.eventType connectorActor event.findingId
    (some event.details)

/-- The log against the outbox and the runs, by how often each event id is recorded. -/
structure Logged (db : ImportDb F T) (tasks : List (BridgeTask F)) (recorded : Text → ℕ) : Prop where
  framed : ∀ r ∈ db.outbox.rows, Framed r.content
  appending : ∀ event, .append event ∈ tasks → ∃ r ∈ db.outbox.rows, r.toAuditEvent = event
  once : ∀ eventId, recorded eventId ≤ 1
  marking : ∀ eventId, .mark eventId ∈ tasks → recorded eventId = 1
  delivered : ∀ r ∈ db.outbox.rows, r.deliveredAt.isSome → recorded r.eventId = 1

variable {tasks : List (BridgeTask F)} {recorded : Text → ℕ}

omit [PyFloat F] in
theorem Logged.subset {fewer : List (BridgeTask F)} (h : Logged db tasks recorded)
    (hsub : fewer ⊆ tasks) : Logged db fewer recorded :=
  ⟨h.framed, fun event he => h.appending event (hsub he), h.once,
    fun eventId he => h.marking eventId (hsub he), h.delivered⟩

omit [PyFloat F] in
/-- Nothing in the audit event of an import of the connector breaks a line. -/
theorem framed_outboxRow (hfrom : FromMiniSoar H finding) (action : ImportAction) (seed : Bytes) :
    Framed (outboxRow H finding evidenceHash action seed current).content := by
  obtain ⟨identity, hid⟩ := hfrom.findingId
  obtain ⟨kind, hcontrol⟩ := hfrom.controlId
  have hplain {t : Text} (h : ∀ c ∈ t, Plain c) : (t.all fun c => !isUnescapedBreak c) = true :=
    List.all_eq_true.mpr fun c hc => not_isUnescapedBreak_of_plain c (h c hc)
  have htarget : ∀ c ∈ finding.findingId, Plain c := by
    rw [hid]
    intro c hc
    rcases List.mem_append.mp hc with hc | hc
    · exact plain_lit (by decide) c hc
    · exact plain_upperHex (fun d hd => plain_of_isLowerHex
        (H.isLowerHex_hexdigest identity d (List.mem_of_mem_take hd))) c hc
  have h₁ := hplain (plain_eventId (H := H) seed)
  have h₂ : (importEventType action).all (fun c => !isUnescapedBreak c) = true := by
    cases action <;> decide
  have h₃ : finding.controlId.all (fun c => !isUnescapedBreak c) = true := by
    rw [hcontrol]
    cases kind <;> decide
  have h₄ : finding.source.all (fun c => !isUnescapedBreak c) = true := by
    rw [hfrom.source]
    decide
  have h₅ := hplain htarget
  have h₆ : (lit "minisoar-bridge-connector").all (fun c => !isUnescapedBreak c) = true := by decide
  have h₇ : (lit "control_id").all (fun c => !isUnescapedBreak c) = true := by decide
  have h₈ : (lit "source").all (fun c => !isUnescapedBreak c) = true := by decide
  simp only [Framed, AuditEvent.content, outboxRow, Audit.content, connectorActor, Actor.value,
    orEmpty, auditDetails, all, allItems, allFields, allField, charsNode, List.all_cons,
    List.all_nil, h₁, h₂, h₃, h₄, h₅, h₆, h₇, h₈, Bool.and_true]

omit [PyFloat F] in
theorem Logged.queued {r : AuditOutboxRow F T} (h : Logged db tasks recorded)
    (hfrom : FromMiniSoar H finding) (hq : Queued H db db' finding evidenceHash current r) :
    Logged db' tasks recorded := by
  obtain ⟨action, seed, hr⟩ := hq.row
  refine ⟨fun q hmem => ?_, fun event he => ?_, h.once, h.marking, fun q hmem hset => ?_⟩
  · rw [hq.outbox] at hmem
    rcases List.mem_append.mp hmem with hmem | hmem
    · exact h.framed q hmem
    · rw [List.mem_singleton.mp hmem, hr]
      exact framed_outboxRow hfrom action seed
  · obtain ⟨q, hmem, hevent⟩ := h.appending event he
    refine ⟨q, ?_, hevent⟩
    rw [hq.outbox]
    exact List.mem_append_left _ hmem
  · rw [hq.outbox] at hmem
    rcases List.mem_append.mp hmem with hmem | hmem
    · exact h.delivered q hmem hset
    · rw [List.mem_singleton.mp hmem, hr] at hset
      cases hset

omit [PyFloat F] in
/-- A run starts with the audit event of a row. -/
theorem Logged.started {event : Option (AuditEvent F)} (h : Logged db tasks recorded)
    (hevent : ∀ e, event = some e → ∃ r ∈ db.outbox.rows, r.toAuditEvent = e) :
    Logged db (tasks ++ (event.map BridgeTask.append).toList) recorded := by
  refine ⟨h.framed, fun e he => ?_, h.once, fun eventId he => ?_, h.delivered⟩
  · rcases List.mem_append.mp he with he | he
    · exact h.appending e he
    · cases event with
      | none => cases he
      | some e' =>
        obtain rfl := BridgeTask.append.inj (List.mem_singleton.mp he)
        exact hevent _ rfl
  · rcases List.mem_append.mp he with he | he
    · exact h.marking eventId he
    · cases event with
      | none => cases he
      | some e' => cases List.mem_singleton.mp he

omit [PyFloat F] in
/-- After an idempotent append its run may mark the event. -/
theorem Logged.appended {later : Text → ℕ} {run : ℕ} {eventId : Text} (h : Logged db tasks recorded)
    (hlater : ∀ e, later e = if eventId = e ∧ recorded e = 0 then 1 else recorded e) :
    Logged db (tasks.set run (.mark eventId)) later := by
  have hkept (e : Text) (he : recorded e = 1) : later e = 1 := by
    rw [hlater, if_neg (by omega), he]
  refine ⟨h.framed, fun e he => ?_, fun e => ?_, fun e he => ?_, fun r hr hset => ?_⟩
  · rcases List.mem_or_eq_of_mem_set he with he | he
    · exact h.appending e he
    · cases he
  · have := h.once e
    rw [hlater]
    split_ifs <;> omega
  · rcases List.mem_or_eq_of_mem_set he with he | he
    · exact hkept e (h.marking e he)
    · obtain rfl := BridgeTask.mark.inj he
      have := h.once e
      rw [hlater]
      split_ifs with hnew
      · rfl
      · simp only [true_and] at hnew
        omega
  · exact hkept _ (h.delivered r hr hset)

omit [PyFloat F] in
theorem Logged.marked {eventId : Text} (h : Logged db tasks recorded)
    (hrecorded : recorded eventId = 1)
    (hrows : db'.outbox.rows = db.outbox.rows.map (AuditOutboxRow.markDelivered eventId current)) :
    Logged db' tasks recorded := by
  refine ⟨fun q hq => ?_, fun event he => ?_, h.once, h.marking, fun q hq hset => ?_⟩
  · rw [hrows] at hq
    obtain ⟨r, hr, rfl⟩ := List.mem_map.mp hq
    exact h.framed r hr
  · obtain ⟨r, hr, hevent⟩ := h.appending event he
    refine ⟨r.markDelivered eventId current, ?_, hevent⟩
    rw [hrows]
    exact List.mem_map_of_mem hr
  · rw [hrows] at hq
    obtain ⟨r, hr, rfl⟩ := List.mem_map.mp hq
    by_cases hid : r.eventId = eventId
    · rw [← hid] at hrecorded
      exact hrecorded
    · refine h.delivered r hr ?_
      rw [AuditOutboxRow.markDelivered, if_neg hid] at hset
      exact hset

/-! ### Steps -/

/-- The imports, the tables, the log and the runs agree. -/
def InStep (H : Digest) (s : BridgeState F T) (imports : Finset (Text × Text)) : Prop :=
  Imported imports s.db ∧ ∃ (records : List (Fields F)) (last : Text), Holds H s.log records last ∧
    Logged s.db s.tasks fun eventId => timesRecorded eventId records

omit [PyFloat F] in
theorem tasks_finish (s : BridgeState F T) (run : ℕ) : (s.finish run).tasks ⊆ s.tasks :=
  List.eraseIdx_subset

variable {s : BridgeState F T}

theorem InStep.finish (h : InStep H s imports) (run : ℕ) : InStep H (s.finish run) imports := by
  obtain ⟨himported, records, last, hholds, hlogged⟩ := h
  exact ⟨himported, records, last, hholds, hlogged.subset (tasks_finish s run)⟩

theorem InStep.record (h : InStep H s imports) (hfrom : FromMiniSoar H finding)
    {action : ImportAction} {event : Option (AuditEvent F)}
    (hok : recordExternalFindingImport H s.db finding evidenceHash current = .ok (db', action, event)) :
    InStep H { s with db := db', tasks := s.tasks ++ (event.map BridgeTask.append).toList }
      (insert (finding.findingId, evidenceHash) imports) := by
  obtain ⟨himported, records, last, hholds, hlogged⟩ := h
  obtain ⟨rfl, hcases⟩ := recordExternalFindingImport_cases hok
  have hevent {d : ImportDb F T} : ∀ e,
      (d.import? finding.findingId evidenceHash).bind AuditOutboxRow.undelivered = some e →
        ∃ r ∈ d.outbox.rows, r.toAuditEvent = e := fun e he => exists_row_of_undelivered he
  rcases hcases with ⟨⟨r, hfound⟩, rfl⟩ | ⟨hnew, r, hq⟩
  · rw [himported.replayed hfound]
    exact ⟨himported, records, last, hholds, hlogged.started hevent⟩
  · exact ⟨himported.queued hnew hq, records, last, hholds, (hlogged.queued hfrom hq).started hevent⟩

theorem InStep.append (h : InStep H s imports) {run : ℕ} {event : AuditEvent F}
    (htask : s.tasks[run]? = some (.append event)) {now : Stamp} {log : File} {record : Fields F}
    {added : Bool} (hok : appendEvent H s.log now event = .ok (log, record, added)) :
    InStep H { s with log, tasks := s.tasks.set run (.mark event.eventId) } imports := by
  obtain ⟨himported, records, last, hholds, hlogged⟩ := h
  obtain ⟨r, hr, rfl⟩ := hlogged.appending event (List.mem_of_getElem? htask)
  obtain ⟨records', last', hholds', hlater⟩ :=
    appendIdempotent_recorded hholds hok (hlogged.framed r hr)
  exact ⟨himported, records', last', hholds', hlogged.appended hlater⟩

theorem InStep.mark (h : InStep H s imports) {run : ℕ} {eventId : Text}
    (htask : s.tasks[run]? = some (.mark eventId))
    (hok : markExternalFindingAuditDelivered s.db eventId current = .ok db') :
    InStep H { s with db := db' } imports := by
  obtain ⟨himported, records, last, hholds, hlogged⟩ := h
  obtain ⟨himported', hrows⟩ := himported.marked hok
  exact ⟨himported', records, last, hholds,
    hlogged.marked (hlogged.marking eventId (List.mem_of_getElem? htask)) hrows⟩

variable {normalizeTimestamp : Text → Except PyError Text}

end SentinelGRC.Connectors
