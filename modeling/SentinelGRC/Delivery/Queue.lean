import SentinelGRC.Governance.Schema
import SentinelGRC.Protocol.OrderedDelivery
import SentinelGRC.Python.Clock
import SentinelGRC.Python.JsonSort

/-!
What the two delivery queues have in common. `governance_outbox` and `audit_exports`
hold one row for each event, with its place in its finding and the columns that record
how far its delivery is. Claims, the guarded updates and the requeue of dead rows are
the same for both; each is one SQLite transaction.
-/

namespace SentinelGRC.Delivery

open Python Store Governance Protocol

/-! ### Rows -/

/-- The columns that no update touches. -/
structure Key where
  id : Text
  eventId : Text
  findingId : Text
  eventSequence : ℕ

/-- The columns that updates write. The finish is `delivered_at` or `archived_at`. -/
structure Progress (F : Type) where
  availableAt : F
  attempts : ℕ
  lockedUntil : Option F
  workerId : Option Text
  lockToken : Option Text
  finishedAt : Option F
  deadAt : Option F
  lastError : Option Text

/-- A table of rows to deliver. -/
class Deliverable (ρ : Type) (F : outParam Type) (clash : outParam (ρ → ρ → Bool)) where
  key : ρ → Key
  createdAt : ρ → F
  progress : ρ → Progress F
  put : Progress F → ρ → ρ
  key_put : ∀ p r, key (put p r) = key r
  progress_put : ∀ p r, progress (put p r) = p
  clash_id : ∀ q r, (key q).id = (key r).id → clash q r = true
  clash_key : ∀ q r q' r', key q = key q' → key r = key r' → clash q r = clash q' r'

export Deliverable (key createdAt progress put)

attribute [simp] Deliverable.key_put Deliverable.progress_put

instance outboxDeliverable (F : Type) : Deliverable (OutboxRow F) F OutboxRow.clash where
  key r := ⟨r.outboxId, r.eventId, r.findingId, r.eventSequence⟩
  createdAt r := r.createdAt
  progress r := ⟨r.availableAt, r.attempts, r.lockedUntil, r.workerId, r.lockToken, r.deliveredAt,
    r.deadAt, r.lastError⟩
  put p r := { r with
    availableAt := p.availableAt
    attempts := p.attempts
    lockedUntil := p.lockedUntil
    workerId := p.workerId
    lockToken := p.lockToken
    deliveredAt := p.finishedAt
    deadAt := p.deadAt
    lastError := p.lastError }
  key_put _ _ := rfl
  progress_put _ _ := rfl
  clash_id q r h := by simp [OutboxRow.clash, show q.outboxId = r.outboxId from h]
  clash_key q r q' r' hq hr := by
    simp only [Key.mk.injEq] at hq hr
    simp only [OutboxRow.clash, hq, hr]

instance exportDeliverable (F : Type) : Deliverable (AuditExport F) F AuditExport.clash where
  key r := ⟨r.exportId, r.eventId, r.findingId, r.eventSequence⟩
  createdAt r := r.createdAt
  progress r := ⟨r.availableAt, r.attempts, r.lockedUntil, r.workerId, r.lockToken, r.archivedAt,
    r.deadAt, r.lastError⟩
  put p r := { r with
    availableAt := p.availableAt
    attempts := p.attempts
    lockedUntil := p.lockedUntil
    workerId := p.workerId
    lockToken := p.lockToken
    archivedAt := p.finishedAt
    deadAt := p.deadAt
    lastError := p.lastError }
  key_put _ _ := rfl
  progress_put _ _ := rfl
  clash_id q r h := by simp [AuditExport.clash, show q.exportId = r.exportId from h]
  clash_key q r q' r' hq hr := by
    simp only [Key.mk.injEq] at hq hr
    simp only [AuditExport.clash, hq, hr]

variable {ρ F : Type} {clash : ρ → ρ → Bool} [Deliverable ρ F clash]

/-! ### Statements -/

/-- The row under an id. -/
def find? (q : Unique ρ clash) (id : Text) : Option ρ := q.rows.find? fun r => (key r).id = id

/-- A function that rewrites rows but keeps their keys. -/
structure Write (ρ : Type) {F : Type} {clash : ρ → ρ → Bool} [Deliverable ρ F clash] where
  apply : ρ → ρ
  key_apply : ∀ r, key (apply r) = key r

/-- `UPDATE ... WHERE id = ?`. -/
def set (q : Unique ρ clash) (id : Text) (w : Write ρ) : Unique ρ clash :=
  q.map (fun r => if (key r).id = id then w.apply r else r) (by
    have hkey (r : ρ) : key (if (key r).id = id then w.apply r else r) = key r := by
      split_ifs
      · exact w.key_apply r
      · rfl
    exact fun r s => Deliverable.clash_key _ _ _ _ (hkey r) (hkey s))

/-- `UPDATE ... WHERE id = ? AND ...`, with whether a row was updated. -/
def update (q : Unique ρ clash) (id : Text) (guard : ρ → Bool) (w : Write ρ) :
    Unique ρ clash × Bool :=
  match find? q id with
  | some r => if guard r then (set q id w, true) else (q, false)
  | none => (q, false)

/-- `column = ?` for a text column, which is not true of nulls. -/
def equals (column parameter : Option Text) : Bool :=
  match column, parameter with
  | some a, some b => a = b
  | _, _ => false

/-- A write of the progress alone. -/
def written (p : Progress F → Progress F) : Write ρ where
  apply r := put (p (progress r)) r
  key_apply _ := Deliverable.key_put _ _

/-! ### Operations -/

section Operations

variable [Clock F]

/-- Not finished, not dead. -/
def isPending (r : ρ) : Bool := (progress r).finishedAt.isNone && (progress r).deadAt.isNone

/-- The rows that a claim may take. -/
def claimable (q : Unique ρ clash) (now : F) (r : ρ) : Bool :=
  isPending r && decide ((progress r).availableAt ≤ now) &&
    (progress r).lockedUntil.all (fun lockedUntil => decide (lockedUntil ≤ now)) &&
    !q.rows.any fun earlier =>
      (key earlier).findingId == (key r).findingId &&
        decide ((key earlier).eventSequence < (key r).eventSequence) &&
        (progress earlier).finishedAt.isNone

/-- `ORDER BY created_at, id`. -/
def Before (q r : ρ) : Prop :=
  createdAt q < createdAt r ∨ createdAt q = createdAt r ∧ Json.keyLe (key q).id (key r).id = true

instance : DecidableRel (Before (ρ := ρ) (F := F)) := fun q r =>
  inferInstanceAs (Decidable (createdAt q < createdAt r ∨
    createdAt q = createdAt r ∧ Json.keyLe (key q).id (key r).id = true))

def candidate (q : Unique ρ clash) (now : F) : Option ρ :=
  ((q.rows.filter (claimable q now)).insertionSort Before).head?

/-- What a claim writes. -/
def take (lockedUntil : F) (workerId token : Text) : Write ρ :=
  written fun p => { p with
    attempts := p.attempts + 1
    lockedUntil := some lockedUntil
    workerId := some workerId
    lockToken := some token }

/-- `claim`, with the text of its refusal. -/
def claim (refusal : Text) (q : Unique ρ clash) (workerId : Text) (leaseSeconds : ℤ) (token : Uuid)
    (now : F) : Unique ρ clash × Except PyError (Option ρ) :=
  if blank workerId ∨ leaseSeconds ≤ 0 then (q, .error (.valueError refusal))
  else match candidate q now with
    | none => (q, .ok none)
    | some row =>
      if ¬ Scalar workerId then (q, .error .unicodeEncodeError)
      else
        let q := set q (key row).id (take (Clock.after now leaseSeconds) workerId token.hex)
        (q, .ok (find? q (key row).id))

/-- The row is pending and under the lease of the item, as a claim returned it. -/
def leasedBy (item row : ρ) : Bool :=
  isPending row && equals (progress row).workerId (progress item).workerId &&
    equals (progress row).lockToken (progress item).lockToken

/-- And the lease has not run out. -/
def heldBy (item : ρ) (now : F) (row : ρ) : Bool :=
  leasedBy item row && (progress row).lockedUntil.any fun lockedUntil => decide (now < lockedUntil)

/-- What an acknowledgement writes, beside the receipt. -/
def finish (now : F) (p : Progress F) : Progress F :=
  { p with finishedAt := some now, lockedUntil := none, workerId := none, lockToken := none,
           lastError := none }

/-- What a failure writes. -/
def release (availableAt : F) (deadAt : Option F) (error : Text) (p : Progress F) : Progress F :=
  { p with availableAt, deadAt, lockedUntil := none, workerId := none, lockToken := none,
           lastError := some error }

/-- What a requeue writes. -/
def revive (now : F) (p : Progress F) : Progress F :=
  { p with attempts := 0, availableAt := now, deadAt := none, lockedUntil := none, workerId := none,
           lockToken := none, lastError := none }

/-- `re.fullmatch(r"[a-f0-9]{32}", ...)`. -/
def isId (id : Text) : Bool := decide (id.length = 32) && id.all isLowerHex

/-- The texts of `requeue_dead`. -/
structure RequeueTexts where
  invalid : Text
  confirmation : Text
  unconfirmed : Text

/-- `requeue_dead`. -/
def requeueDead (texts : RequeueTexts) (q : Unique ρ clash) (id confirmation : Text) (now : F) :
    Unique ρ clash × Except PyError Bool :=
  if isId id = false then (q, .error (.valueError texts.invalid))
  else if confirmation ≠ texts.confirmation ++ id then (q, .error (.permissionError texts.unconfirmed))
  else
    let (q, updated) := update q id
      (fun r => (progress r).finishedAt.isNone && (progress r).deadAt.isSome) (written (revive now))
    (q, .ok updated)

/-- The sums of `metrics`. -/
structure Counts where
  finished : ℕ
  pending : ℕ
  dead : ℕ

def counts (q : Unique ρ clash) : Counts where
  finished := q.rows.countP fun r => (progress r).finishedAt.isSome
  pending := q.rows.countP isPending
  dead := q.rows.countP fun r => (progress r).deadAt.isSome

end Operations

end SentinelGRC.Delivery
