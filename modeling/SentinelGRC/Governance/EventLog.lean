import SentinelGRC.Governance.Schema
import SentinelGRC.Python.JsonLoads

/-!
The event log of a finding. `_event` chains a new event to the last one of the
finding, stores it and queues its payload twice, for the outbox and for the audit
archive. A violated constraint is an integrity error; text with a lone surrogate
cannot be bound to a statement.
-/

namespace SentinelGRC.Governance

open Python Json Store

variable {F : Type}

/-! ### Statements -/

/-- Binding text parameters to a statement. -/
def bindTexts (texts : List Text) : Except PyError Unit :=
  if ∀ t ∈ texts, Scalar t then .ok () else .error .unicodeEncodeError

/-- The outcome of an `INSERT`. -/
def inserted {α : Type} : Option α → Except PyError α
  | some table => .ok table
  | none => .error .integrityError

/-! ### The last event -/

/-- `ORDER BY event_sequence DESC LIMIT 1`. -/
def lastEvent : List (Event F) → Option (Event F)
  | [] => none
  | e :: rest =>
    match lastEvent rest with
    | none => some e
    | some last => if last.eventSequence < e.eventSequence then some e else some last

def chainedHash (events : List (Event F)) : Text :=
  match lastEvent events with
  | none => []
  | some e => e.eventHash

/-- `COALESCE(MAX(event_sequence), 0) + 1`. -/
def nextSequence (events : List (Event F)) : ℕ :=
  (events.map Event.eventSequence).foldr max 0 + 1

/-! ### Events -/

/-- The hashed part of an event. -/
def eventBody (findingId : Text) (eventType : EventType) (actorId : Text) (actorRole : Role)
    (authMethod : Text) (occurredAt : F) (details : Json F) (previousHash : Text) : Fields F :=
  [(lit "finding_id", .str findingId), (lit "event_type", .str eventType.text),
    (lit "actor_id", .str actorId), (lit "actor_role", .str actorRole.text),
    (lit "auth_method", .str authMethod), (lit "occurred_at", .float (.finite occurredAt)),
    (lit "details", details), (lit "previous_hash", .str previousHash)]

/-- `{**body, "event_id": ..., "event_sequence": ..., "event_hash": ...}`. -/
def eventPayload (body : Fields F) (eventId : Text) (eventSequence : ℕ) (eventHash : Text) :
    Fields F :=
  body ++ [(lit "event_id", .str eventId), (lit "event_sequence", .int eventSequence),
    (lit "event_hash", .str eventHash)]

/-- The readings and identities an operation draws when it commits. -/
structure Stamp (F : Type) where
  now : F
  /-- The second reading of the clock in `create_finding`. -/
  updatedAt : F
  eventId : Uuid
  outboxId : Uuid
  exportId : Uuid

variable [PyFloat F]

/-- `hashlib.sha256((previous_hash + json.dumps(body, ...)).encode("utf-8")).hexdigest()`. -/
def chainHash (H : Digest) (previousHash : Text) (body : Fields F) : Except PyError Text := do
  let text ← dumps compact (.obj body)
  let bytes ← encodeUtf8 (previousHash ++ text)
  return H.hexdigest bytes

/-- `json.dumps(value, sort_keys=True)`. -/
def spacedStyle : Style := ⟨true, true⟩

/-- `_event`, inside the transaction of its caller. -/
def event (H : Digest) (db : Db F) (findingId : Text) (eventType : EventType) (actor : ActorContext)
    (details : Fields F) (now : F) (stamp : Stamp F) : Except PyError (Db F) := do
  let previousHash := chainedHash (db.eventsOf findingId)
  let eventSequence := nextSequence (db.eventsOf findingId)
  let body := eventBody findingId eventType actor.actorId actor.role actor.authMethod now
    (.obj details) previousHash
  let eventHash ← chainHash H previousHash body
  let eventId := stamp.eventId.hex
  let detailsJson ← dumps spacedStyle (.obj details)
  bindTexts [findingId, actor.actorId, actor.authMethod]
  let governanceEvents ← inserted (db.governanceEvents.insert? ⟨eventId, findingId, eventSequence,
    eventType, actor.actorId, actor.role, actor.authMethod, now, detailsJson, previousHash, eventHash⟩)
  let payloadJson ← dumps compact (.obj (eventPayload body eventId eventSequence eventHash))
  let governanceOutbox ← inserted (db.governanceOutbox.insert? ⟨stamp.outboxId.hex, eventId,
    findingId, eventSequence, lit "governance.event.v1", payloadJson, now, now, 0, none, none, none,
    none, none, none, none, none⟩)
  let auditExports ← inserted (db.auditExports.insert? ⟨stamp.exportId.hex, eventId, findingId,
    eventSequence, payloadJson, now, now, 0, none, none, none, none, none, none, none, none, none,
    none⟩)
  return { db with governanceEvents, governanceOutbox, auditExports }

/-! ### Verification -/

/-- `list_events`: `ORDER BY event_sequence`. -/
def Db.listEvents (db : Db F) (findingId : Text) : List (Event F) :=
  (db.eventsOf findingId).insertionSort fun d e => d.eventSequence ≤ e.eventSequence

/-- The loop of `verify_event_chain`, from the hash expected next. -/
def verifyEvents (H : Digest) (findingId : Text) : Text → List (Event F) → Except PyError Bool
  | _, [] => .ok true
  | previous, e :: rest => do
    let details ← loads e.detailsJson
    let expected ← chainHash H previous (eventBody findingId e.eventType e.actorId e.actorRole
      e.authMethod e.occurredAt details previous)
    if e.previousHash ≠ previous ∨ e.eventHash ≠ expected then return false
    verifyEvents H findingId e.eventHash rest

/-- `verify_event_chain`. -/
def verifyEventChain (H : Digest) (db : Db F) (findingId : Text) : Except PyError Bool :=
  verifyEvents H findingId [] (db.listEvents findingId)

end SentinelGRC.Governance
