import SentinelGRC.Delivery.Outbox

/-!
The audit export queue. Its acknowledgement is one guarded `UPDATE`; its failure, unlike
that of the outbox, does not ask whether the lease has run out.
-/

namespace SentinelGRC.Delivery

open Python Store Governance

variable {F : Type}

/-- What an archive says about an event that it keeps. -/
structure ArchivedAuditObject where
  objectKey : Text
  sha256 : Text
  sizeBytes : ℕ
  etag : Text

abbrev Exports (F : Type) := Unique (AuditExport F) AuditExport.clash

namespace Exports

variable [Clock F]

/-- `claim`. -/
def claim (exports : Exports F) (workerId : Text) (leaseSeconds : ℤ) (token : Uuid) (now : F) :
    Exports F × Except PyError (Option (AuditExport F)) :=
  Delivery.claim (lit "worker_id and a positive lease_seconds are required") exports workerId
    leaseSeconds token now

/-- The columns that an acknowledgement writes. -/
def archived (now : F) (object : ArchivedAuditObject) : Write (AuditExport F) where
  apply r := { put (finish now (progress r)) r with
    objectKey := some object.objectKey
    sha256 := some object.sha256
    sizeBytes := some object.sizeBytes
    etag := some object.etag }
  key_apply _ := rfl

/-- `acknowledge`. -/
def acknowledge (exports : Exports F) (item : AuditExport F) (object : ArchivedAuditObject) (now : F) :
    Exports F × Except PyError Bool :=
  if ¬ (∀ t ∈ [object.objectKey, object.sha256, object.etag, item.exportId] ++ item.workerId.toList ++
      item.lockToken.toList, Scalar t) then (exports, .error .unicodeEncodeError)
  else
    let (exports, updated) := update exports item.exportId (heldBy item now) (archived now object)
    (exports, .ok updated)

/-- `fail`. -/
def fail (exports : Exports F) (item : AuditExport F) (maxAttempts retryDelay : ℤ) (now : F) :
    Exports F × Except PyError Failed :=
  if maxAttempts < 1 ∨ retryDelay < 0 then
    (exports, .error (.valueError (lit "audit retry policy is invalid")))
  else if ¬ (∀ t ∈ item.exportId :: item.workerId.toList ++ item.lockToken.toList, Scalar t) then
    (exports, .error .unicodeEncodeError)
  else
    let dead : Bool := decide (maxAttempts ≤ item.attempts)
    let (exports, updated) := update exports item.exportId (leasedBy item)
      (written (release (Clock.after now retryDelay) (if dead then some now else none)
        (lit "audit archive delivery failed")))
    (exports, .ok (if ¬ updated then .stale else if dead then .dead else .retry))

/-- `requeue_dead`. -/
def requeueDead (exports : Exports F) (exportId confirmation : Text) (now : F) :
    Exports F × Except PyError Bool :=
  Delivery.requeueDead
    { invalid := lit "export_id is invalid"
      confirmation := lit "REQUEUE "
      unconfirmed := lit "exact dead-letter requeue confirmation is required" }
    exports exportId confirmation now

/-- `metrics`. -/
def metrics (exports : Exports F) : Counts := counts exports

end Exports

end SentinelGRC.Delivery
