import SentinelGRC.Jobs.Queue
import SentinelGRC.Python.Hashlib
import SentinelGRC.Store.Serial

/-!
The job queue on PostgreSQL. Its rows have a lock token besides, which every claim
draws anew and every later call of the claim's owner brings along. The driver refuses
text that does not encode, and text with a NUL character, which the server's text type
does not hold; a statement with such a parameter is not sent.
-/

namespace SentinelGRC.Jobs

open Python Store Transition

/-- A row of `pipeline_jobs` on PostgreSQL. -/
structure PostgresJob (T : Type) extends Job T where
  lockToken : Option Text
  deriving DecidableEq

/-- The table with its sequence, which an insert draws from even when it does nothing. -/
abbrev PostgresQueue (T : Type) := SerialTable (PostgresJob T) fun r => r.jobId

/-- An exception of the interpreter, or the driver's `DataError`. -/
inductive PostgresError
  | python (error : PyError)
  | dataError
  deriving DecidableEq

/-- Whether the driver takes a text parameter. -/
def bindText (t : Text) : Except PostgresError Unit :=
  if ¬ Scalar t then .error (.python .unicodeEncodeError)
  else if (0 : CodePoint) ∈ t then .error .dataError
  else .ok ()

/-- `uuid.uuid4().hex`. -/
structure LockToken where
  text : Text
  hex : ∀ c ∈ text, isLowerHex c = true
  length : text.length = 32

namespace PostgresQueue

variable {T : Type} [Clock T]

/-- The row, when it is there, is running under an unexpired lease of the worker with the
token. -/
def leasedTo (workerId lockToken : Text) (now : T) (r : PostgresJob T) : Bool :=
  Queue.leasedTo workerId now r.toJob && r.lockToken = some lockToken

def take (workerId : Text) (lockToken : LockToken) (lockedUntil : T) (r : PostgresJob T) :
    PostgresJob T :=
  { r with status := .running, attempts := r.attempts + 1, lockedUntil := some lockedUntil,
           workerId := some workerId, lockToken := some lockToken.text }

def renewed (lockedUntil : T) (r : PostgresJob T) : PostgresJob T :=
  { r with lockedUntil := some lockedUntil }

def completed (r : PostgresJob T) : PostgresJob T :=
  { r with status := .completed, lockedUntil := none, workerId := none, lockToken := none,
           lastError := none }

def failed (dead : Bool) (availableAt : T) (error : Text) (r : PostgresJob T) : PostgresJob T :=
  { r with status := if dead then .dead else .pending, availableAt, lockedUntil := none,
           workerId := none, lockToken := none, lastError := some error }

/-- `UPDATE ... WHERE job_id = ?` with further conditions; the answer is `rowcount == 1`. -/
def update (q : PostgresQueue T) (jobId : ℕ) (guard : PostgresJob T → Bool)
    (f : PostgresJob T → PostgresJob T) (hf : ∀ r, (f r).jobId = r.jobId) : PostgresQueue T × Bool :=
  match q.table.find? jobId with
  | some r => if guard r then (q.set jobId f hf, true) else (q, false)
  | none => (q, false)

/-! ### Operations -/

def enqueue (q : PostgresQueue T) (payloadPath : Text) (now : T) :
    PostgresQueue T × Except PostgresError Bool :=
  if blank payloadPath then
    (q, .error (.python (.valueError (lit "payload_path is required"))))
  else match bindText payloadPath with
    | .error e => (q, .error e)
    | .ok () =>
      if q.table.rows.any fun r => r.payloadPath = payloadPath then (q.skip, .ok false)
      else
        (q.insert (fun n => ⟨⟨n, payloadPath, .pending, 0, now, none, none, none⟩, none⟩)
          (fun _ => rfl), .ok true)

def claim (q : PostgresQueue T) (workerId : Text) (leaseSeconds : ℤ) (now : T) (token : LockToken) :
    PostgresQueue T × Except PostgresError (Option (PostgresJob T)) :=
  if blank workerId ∨ leaseSeconds ≤ 0 then
    (q, .error (.python (.valueError
      (lit "worker_id and a positive lease_seconds are required"))))
  else match bindText workerId with
    | .error e => (q, .error e)
    | .ok () =>
      match q.table.rows.find? fun r => Queue.claimable now r.toJob with
      | none => (q, .ok none)
      | some row =>
        (q.set row.jobId (take workerId token (Clock.after now leaseSeconds)) fun _ => rfl,
          .ok (some (take workerId token (Clock.after now leaseSeconds) row)))

def renew (q : PostgresQueue T) (jobId : ℕ) (workerId lockToken : Text) (leaseSeconds : ℤ) (now : T) :
    PostgresQueue T × Except PostgresError Bool :=
  if blank workerId ∨ lockToken = [] ∨ leaseSeconds ≤ 0 then
    (q, .error (.python (.valueError
      (lit "worker_id, lock_token, and lease_seconds are required"))))
  else match bindText workerId, bindText lockToken with
    | .error e, _ => (q, .error e)
    | _, .error e => (q, .error e)
    | .ok (), .ok () =>
      let (q, updated) := update q jobId (leasedTo workerId lockToken now)
        (renewed (Clock.after now leaseSeconds)) fun _ => rfl
      (q, .ok updated)

def complete (q : PostgresQueue T) (jobId : ℕ) (workerId lockToken : Text) (now : T) :
    PostgresQueue T × Except PostgresError Bool :=
  match bindText workerId, bindText lockToken with
  | .error e, _ => (q, .error e)
  | _, .error e => (q, .error e)
  | .ok (), .ok () =>
    let (q, updated) := update q jobId (leasedTo workerId lockToken now) completed fun _ => rfl
    (q, .ok updated)

def fail (q : PostgresQueue T) (jobId : ℕ) (workerId lockToken error : Text)
    (maxAttempts retryDelay : ℤ) (now : T) :
    PostgresQueue T × Except PostgresError Queue.Failed :=
  if maxAttempts < 1 ∨ retryDelay < 0 then
    (q, .error (.python (.valueError (lit "max_attempts and retry_delay are invalid"))))
  else match q.table.find? jobId with
    | none => (q, .ok .leaseLost)
    | some row =>
      if ¬ leasedTo workerId lockToken now row then (q, .ok .leaseLost)
      else match bindText (error.take 2000) with
        | .error e => (q, .error e)
        | .ok () =>
          let dead : Bool := maxAttempts ≤ row.attempts
          (q.set jobId (failed dead (Clock.after now (if dead then 0 else retryDelay))
            (error.take 2000)) (fun _ => rfl),
          .ok (if dead then .dead else .pending))

end PostgresQueue

end SentinelGRC.Jobs
