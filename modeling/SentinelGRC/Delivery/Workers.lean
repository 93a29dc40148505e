import SentinelGRC.Delivery.Commits

/-!
Delivery workers. A run of a worker is a claim, a publication and an acknowledgement or a
failure, each a step of its own; between two steps of one worker anything may happen, and
a worker can stop for good at any point. What is published is recorded in order.
-/

namespace SentinelGRC.Delivery

open Python Json Store Governance Protocol Transition

variable {F S : Type}

/-! ### Workers -/

/-- Where a worker of the outbox stands in `run_once`. -/
inductive OutboxPhase (F : Type)
  | idle
  | claimed (item : OutboxRow F)
  | published (item : OutboxRow F) (receipt : Text)
  /-- Between the two transactions of `acknowledge`. -/
  | settling (item : OutboxRow F) (receipt : Text)
  | failing (item : OutboxRow F) (error : Text) (permanent : Bool)

/-- Where a worker of the audit exports stands in `run_once`. -/
inductive ExportPhase (F : Type)
  | idle
  | claimed (item : AuditExport F)
  | archived (item : AuditExport F) (object : ArchivedAuditObject)
  | failing (item : AuditExport F)

/-- How a call of the publisher ends. One that raises may have been accepted all the same. -/
inductive Publishing
  | receipt (messageId : Text)
  | raised (error : Text) (permanent : Bool) (accepted : Bool)

/-- How a call of the archive ends. -/
inductive Archiving
  | stored (object : ArchivedAuditObject)
  | raised (accepted : Bool)

structure Publication where
  message : OutboxMessage
  accepted : Bool

structure Archival (F : Type) where
  item : AuditExport F
  accepted : Bool

structure Fleet (F S : Type) where
  sys : Sys F S
  publishers : ℕ → OutboxPhase F
  publications : List Publication
  archivers : ℕ → ExportPhase F
  archivals : List (Archival F)

/-- The next step of a worker of the outbox. -/
inductive PublisherStep (F : Type)
  | claim (workerId : Text) (leaseSeconds : ℤ) (token : Uuid) (now : F)
  | publish (outcome : Publishing)
  | lookup
  | settle (now : F)
  | fail (maxAttempts retryDelay : ℤ) (now : F)
  | crash

/-- The next step of a worker of the audit exports. -/
inductive ArchiverStep (F : Type)
  | claim (workerId : Text) (leaseSeconds : ℤ) (token : Uuid) (now : F)
  | archive (outcome : Archiving)
  | acknowledge (now : F)
  | fail (maxAttempts retryDelay : ℤ) (now : F)
  | crash

inductive Turn (F : Type)
  | core (action : Action F)
  | publisher (i : ℕ) (step : PublisherStep F)
  | archiver (i : ℕ) (step : ArchiverStep F)
  | requeueOutbox (outboxId confirmation : Text) (now : F)
  | requeueExport (exportId confirmation : Text) (now : F)

/-! ### Steps -/

/-- `str(error)`, for the exceptions that carry a text. -/
def errorText : PyError → Text
  | .valueError message | .typeError message | .keyError message | .permissionError message
  | .indexError message | .runtimeError message => message
  | _ => []

/-- What `run_once` does with an exception of its `try` block. -/
def OutboxError.phase (item : OutboxRow F) : OutboxError → OutboxPhase F
  | .permanent message => .failing item message true
  | .raised e => .failing item (errorText e) false

variable [Clock F] [PyFloat F]

/-- A step of a worker of the outbox; a step that is not the next one of its phase does nothing. -/
def PublisherStep.apply (H : Digest) (outbox : Outbox F) :
    PublisherStep F → OutboxPhase F → Outbox F × OutboxPhase F × Option Publication
  | .claim workerId leaseSeconds token now, .idle =>
    match outbox.claim workerId leaseSeconds token now with
    | (outbox, .ok (some item)) => (outbox, .claimed item, none)
    | (outbox, _) => (outbox, .idle, none)
  | .publish outcome, .claimed item =>
    match fromItem H item with
    | .error e => (outbox, e.phase item, none)
    | .ok message =>
      match outcome with
      | .receipt messageId => (outbox, .published item messageId, some ⟨message, true⟩)
      | .raised error permanent accepted =>
        (outbox, .failing item error permanent, some ⟨message, accepted⟩)
  | .lookup, .published item receipt =>
    match outbox.lookup item receipt with
    | .error e => (outbox, e.phase item, none)
    | .ok (some _) => (outbox, .idle, none)
    | .ok none => (outbox, .settling item receipt, none)
  | .settle now, .settling item receipt =>
    match outbox.settle item receipt now with
    | (outbox, .error e) => (outbox, e.phase item, none)
    | (outbox, .ok _) => (outbox, .idle, none)
  | .fail maxAttempts retryDelay now, .failing item error permanent =>
    ((outbox.fail item error permanent maxAttempts retryDelay now).1, .idle, none)
  | .crash, _ => (outbox, .idle, none)
  | _, phase => (outbox, phase, none)

/-- A step of a worker of the audit exports. -/
def ArchiverStep.apply (exports : Exports F) :
    ArchiverStep F → ExportPhase F → Exports F × ExportPhase F × Option (Archival F)
  | .claim workerId leaseSeconds token now, .idle =>
    match exports.claim workerId leaseSeconds token now with
    | (exports, .ok (some item)) => (exports, .claimed item, none)
    | (exports, _) => (exports, .idle, none)
  | .archive outcome, .claimed item =>
    match (loads item.payloadJson : Except PyError (Json F)) with
    | .error _ => (exports, .failing item, none)
    | .ok _ =>
      match outcome with
      | .stored object => (exports, .archived item object, some ⟨item, true⟩)
      | .raised accepted => (exports, .failing item, some ⟨item, accepted⟩)
  | .acknowledge now, .archived item object =>
    match exports.acknowledge item object now with
    | (exports, .error _) => (exports, .failing item, none)
    | (exports, .ok _) => (exports, .idle, none)
  | .fail maxAttempts retryDelay now, .failing item =>
    ((exports.fail item maxAttempts retryDelay now).1, .idle, none)
  | .crash, _ => (exports, .idle, none)
  | _, phase => (exports, phase, none)

def Fleet.init (objects : S) : Fleet F S :=
  ⟨Sys.init objects, fun _ => .idle, [], fun _ => .idle, []⟩

/-- The core, any number of workers of both queues, and operators who requeue dead rows. -/
def fleet (H : Digest) (store : EvidenceStore S) : Machine (Fleet F S) (Turn F) Unit where
  step := fun s turn =>
    (match turn with
    | .core action => { s with sys := (governance H store).next s.sys action }
    | .publisher i step =>
      let (governanceOutbox, phase, publication) :=
        step.apply H s.sys.db.governanceOutbox (s.publishers i)
      { s with
        sys := { s.sys with db := { s.sys.db with governanceOutbox } }
        publishers := Function.update s.publishers i phase
        publications := s.publications ++ publication.toList }
    | .archiver i step =>
      let (auditExports, phase, archival) := step.apply s.sys.db.auditExports (s.archivers i)
      { s with
        sys := { s.sys with db := { s.sys.db with auditExports } }
        archivers := Function.update s.archivers i phase
        archivals := s.archivals ++ archival.toList }
    | .requeueOutbox outboxId confirmation now =>
      let governanceOutbox :=
        (Outbox.requeueDead s.sys.db.governanceOutbox outboxId confirmation now).1
      { s with sys := { s.sys with db := { s.sys.db with governanceOutbox } } }
    | .requeueExport exportId confirmation now =>
      let auditExports := (Exports.requeueDead s.sys.db.auditExports exportId confirmation now).1
      { s with sys := { s.sys with db := { s.sys.db with auditExports } } }, ())

end SentinelGRC.Delivery
