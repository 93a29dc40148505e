import SentinelGRC.Contracts.Validation
import SentinelGRC.Pipeline.Worker
import SentinelGRC.Python.Str
import SentinelGRC.Store.Directory

/-!
One claimed job in the hands of a worker. Each call of `_process_claimed_job` meets the inbox,
the publication records and the queue as they are at that moment; others may have replaced the
file, committed its record or taken the job over in between, so nothing relates one moment to
the next.
-/

namespace SentinelGRC.Pipeline

open Python Json Store Jobs Contracts

variable {T F R : Type}

/-! ### Moments -/

inductive PublicationStatus
  | pending
  | committed
  deriving DecidableEq

/-- A row of `accepted_payloads`. -/
structure AcceptedPayload (T : Type) where
  payloadHash : Text
  evidenceId : Text
  acceptedAt : T
  status : PublicationStatus

/-- `st_dev` and `st_ino`. -/
abbrev FileId := ℕ × ℕ

abbrev Inbox := Directory Text FileId UInt8

/-- What one call of a worker meets. The row of the job is never deleted, and it is running
only after a claim. -/
structure Moment (T : Type) (jobId : ℕ) where
  inbox : Inbox
  payloads : List (AcceptedPayload T)
  queue : Queue T
  now : T
  /-- The message of the `OSError` or `sqlite3.Error` with which the call fails. -/
  fault : Option Text
  /-- The flag of the heartbeat. -/
  lost : Bool
  present : (queue.find? jobId).isSome = true
  attempted : ∀ r, queue.find? jobId = some r → r.status = .running → 1 ≤ r.attempts

/-- The calls of `_process_claimed_job`, in order. -/
structure Surroundings (T : Type) (jobId : ℕ) where
  renewal : Moment T jobId
  validation : Moment T jobId
  lookup : Moment T jobId
  lstat : Moment T jobId
  opening : Moment T jobId
  fstat : Moment T jobId
  reading : Moment T jobId
  supervision : Moment T jobId
  /-- `queue.fail` in the handlers of the reading. -/
  failing : Moment T jobId
  joining : Moment T jobId
  completion : Moment T jobId
  /-- `queue.fail` in the handler of everything else. -/
  handling : Moment T jobId

/-! ### Pathnames -/

/-- Where the suffix of a file name begins. -/
def suffixStart (name : Text) : ℕ :=
  let tail := (name.reverse.takeWhile fun c => c != ofChar '.').length
  let dot := name.length - tail - 1
  if tail + 1 < name.length ∧ 0 < tail then dot else name.length

/-- `path.stem`. -/
def stem (name : Text) : Text := name.take (suffixStart name)

/-- `path.suffix`. -/
def suffix (name : Text) : Text := name.drop (suffixStart name)

def isEvidenceIdChar (c : CodePoint) : Bool :=
  isAlnum c || c == ofChar '.' || c == ofChar '_' || c == ofChar '-'

/-- `_EVIDENCE_ID_PATTERN.fullmatch`. -/
def matchesEvidenceId (value : Text) : Bool :=
  value.head?.any isAlnum && value.length ≤ 127 && value.all isEvidenceIdChar

/-- `str.upper` on ASCII. -/
def upperAscii (t : Text) : Text :=
  t.map fun c => if h : 0x61 ≤ c.val ∧ c.val ≤ 0x7A then ⟨c.val - 0x20, by omega⟩ else c

def windowsReservedNames : List Text :=
  [lit "CON", lit "PRN", lit "AUX", lit "NUL"] ++
    (List.range' 1 9).map (fun index => lit "COM" ++ natText index) ++
    (List.range' 1 9).map (fun index => lit "LPT" ++ natText index)

/-- An exception, as the handlers tell them apart. -/
inductive Raised
  | osError (message : Text)
  /-- `TypeError` and `ValueError`. -/
  | valueError (message : Text)
  | other (message : Text)

/-- `str(error)`. -/
def Raised.text : Raised → Text
  | .osError message => message
  | .valueError message => message
  | .other message => message

/-- `validate_evidence_id`. -/
def validateEvidenceId (value purpose : Text) : Except Raised Text :=
  if matchesEvidenceId value = false then
    .error (.valueError (purpose ++
      lit " must be 1-127 ASCII letters, digits, dots, underscores, or hyphens"))
  else if upperAscii (value.takeWhile fun c => c != ofChar '.') ∈ windowsReservedNames then
    .error (.valueError (purpose ++ lit " is a reserved filesystem name"))
  else .ok value

/-- A job for a name of the inbox. -/
structure InboxJob (T : Type) where
  job : Job T
  /-- The inbox directory, resolved when the worker started. -/
  inbox : Text
  name : Text
  payloadPath : job.payloadPath = inbox ++ lit "/" ++ name
  bound : Scalar job.payloadPath
  plain : ∀ c ∈ name, c.val ≠ 0 ∧ c ≠ ofChar '/'

variable {jobId : ℕ}

/-- `resolve_under_root` on a name of the inbox; `Path.resolve` raises on a loop of links. -/
def resolveUnderRoot (U : UnicodeTables) (inbox name : Text) (m : Moment T jobId) :
    Except Raised (Target Text) :=
  if name.any fun c => c.val == 0 then
    .error (.valueError (lit "inbox payload path contains a null byte"))
  else match m.inbox.resolve name with
    | none => .error (.other (lit "Symlink loop from " ++ U.repr (inbox ++ lit "/" ++ name)))
    | some .outside => .error (.valueError (lit "inbox payload path must remain under " ++ inbox))
    | some target => .ok target

/-- `_validated_inbox_item`, with the name that the path resolves to. -/
def validatedInboxItem (U : UnicodeTables) (inbox name : Text) (m : Moment T jobId) :
    Except Raised Text := do
  match ← resolveUnderRoot U inbox name m with
  | .name item =>
    if U.lower (suffix item) ≠ lit ".json" then
      throw (.valueError (lit "inbox payload must be a top-level JSON file"))
    let _ ← validateEvidenceId (stem item) (lit "inbox evidence ID")
    return item
  | _ => throw (.valueError (lit "inbox payload must be a top-level JSON file"))

/-! ### Reading -/

/-- A call of the file system: its own failure, or the `OSError` of a missing file or a link. -/
def Moment.attempt {α : Type} (m : Moment T jobId) (result : Option α) : Except Raised α :=
  match m.fault, result with
  | some message, _ => .error (.osError message)
  | none, some a => .ok a
  | none, none => .error (.osError [])

/-- `read_evidence_bytes`: `lstat`, `os.open` with `O_NOFOLLOW`, `fstat` and one `read`. -/
def readEvidenceBytes (s : Surroundings T jobId) (name : Text) : Except Raised (Option Bytes) := do
  let _ ← s.lstat.attempt (s.lstat.inbox.entries name)
  match s.lstat.inbox.regular? name with
  | none => return none
  | some before =>
    let descriptor ← s.opening.attempt (s.opening.inbox.open? name)
    let opened ← s.fstat.attempt (some descriptor)
    if opened.regular = false then return none
    if before ≠ opened.id then return none
    let payload ← s.reading.attempt (some (s.reading.inbox.contents descriptor.id))
    return some payload

/-- `read_verified_evidence`. -/
def readVerifiedEvidence (s : Surroundings T jobId) (name expectedHash : Text) :
    Except Raised (Option Bytes) := do
  match ← readEvidenceBytes s name with
  | none => return none
  | some payload => if sha256.hexdigest payload ≠ expectedHash then return none else return some payload

/-- The row that `find_payload_by_evidence_id` finds. -/
def Moment.payload? (m : Moment T jobId) (evidenceId : Text) : Option (AcceptedPayload T) :=
  m.payloads.find? fun r => r.evidenceId = evidenceId

/-- `find_payload_by_evidence_id`. -/
def findPayloadByEvidenceId (m : Moment T jobId) (evidenceId : Text) :
    Except Raised (Option (AcceptedPayload T)) :=
  match m.fault with
  | some message => .error (.other message)
  | none => .ok (m.payload? evidenceId)

/-- `_read_claimed_payload`. -/
def readClaimedPayload (s : Surroundings T jobId) (item : Text) : Except Raised Bytes := do
  match ← findPayloadByEvidenceId s.lookup (stem item) with
  | none =>
    match ← readEvidenceBytes s item with
    | none => throw (.valueError (lit "inbox payload must be a regular readable file"))
    | some payload => return payload
  | some record =>
    if record.status ≠ .committed then
      throw (.valueError (lit "managed inbox payload is not committed"))
    match ← readVerifiedEvidence s item record.payloadHash with
    | none => throw (.valueError (lit "managed inbox payload failed committed hash verification"))
    | some payload => return payload

/-- The resolved name and the bytes of the evidence. -/
def loadEvidence (U : UnicodeTables) (inbox name : Text) (s : Surroundings T jobId) :
    Except Raised (Text × Bytes) := do
  let item ← validatedInboxItem U inbox name s.validation
  let payload ← readClaimedPayload s item
  return (item, payload)

/-! ### Processing -/

/-- The settings of a worker process, as `_validate_worker_run_options` lets them pass. -/
structure Settings extends Process where
  named : blank workerId = false
  scalar : Scalar workerId
  leased : 0 < leaseSeconds
  attempts : 1 ≤ maxAttempts
  delay : 0 ≤ retryDelay

/-- What `_process_claimed_job` returns. -/
inductive Report (R : Type)
  | leaseLost (file : Text)
  | error (file : Text) (queueStatus : Queue.Failed) (message : Text)
  | done (file : Text) (result : R)

/-- The calls of `run_pipeline` with their posture and stem, the queue as the last call on it
left it, and what the job is reported as. -/
structure Outcome (F T R : Type) where
  calls : List (Json F × Text)
  queue : Queue T
  report : Except Raised (Report R)

/-- What the code around a job brings: the Unicode tables, `str` of an exception that a library
raises, and `run_pipeline`, which returns or raises. -/
structure Library (F R : Type) where
  unicode : UnicodeTables
  describe : PyError → Text
  runPipeline : Json F → Text → Except Text R

variable [Clock T]

/-- A call of the queue; a failing database raises `sqlite3.Error`. -/
def Moment.query {α : Type} (m : Moment T jobId) (describe : PyError → Text)
    (call : Queue T × Except PyError α) : Queue T × Except Raised α :=
  match m.fault, call with
  | some message, _ => (m.queue, .error (.other message))
  | none, (queue, .ok a) => (queue, .ok a)
  | none, (queue, .error e) => (queue, .error (.valueError (describe e)))

/-- `queue.fail`. -/
def Moment.fail (m : Moment T jobId) (describe : PyError → Text) (workerId error : Text)
    (maxAttempts retryDelay : ℤ) : Queue T × Except Raised Queue.Failed :=
  m.query describe (m.queue.fail jobId workerId error maxAttempts retryDelay m.now)

/-- The handler of everything that the handlers of the reading do not catch. -/
def handleException (lib : Library F R) (p : Settings) (file : Text) (s : Surroundings T jobId)
    (calls : List (Json F × Text)) (message : Text) : Outcome F T R :=
  match s.handling.fail lib.describe p.workerId message p.maxAttempts p.retryDelay with
  | (queue, .ok status) => ⟨calls, queue, .ok (.error file status message)⟩
  | (queue, .error e) => ⟨calls, queue, .error e⟩

/-- The handlers of the reading. What they raise themselves is handled as everything else. -/
def rejectEvidence (lib : Library F R) (p : Settings) (file : Text) (s : Surroundings T jobId)
    (message : Text) (maxAttempts retryDelay : ℤ) : Outcome F T R :=
  match s.failing.fail lib.describe p.workerId message maxAttempts retryDelay with
  | (queue, .ok status) => ⟨[], queue, .ok (.error file status message)⟩
  | (_, .error e) => handleException lib p file s [] e.text

/-- `run_pipeline` on the evidence, and the acknowledgement of the job. -/
def runClaimedJob [PyFloat F] (lib : Library F R) (p : Settings) (inbox file : Text)
    (s : Surroundings T jobId) (item : Text) (payload : Bytes) : Outcome F T R :=
  match (decodeUtf8 payload >>= loads : Except PyError (Json F)) with
  | .error e => handleException lib p file s [] (lib.describe e)
  | .ok posture =>
    let calls := [(posture, stem item)]
    match lib.runPipeline posture (stem item) with
    | .error message => handleException lib p file s calls message
    | .ok result =>
      let path := inbox ++ lit "/" ++ item
      if s.joining.lost then ⟨calls, s.joining.queue, .ok (.leaseLost path)⟩
      else match s.completion.query lib.describe
          (s.completion.queue.complete jobId p.workerId s.completion.now) with
        | (queue, .ok true) => ⟨calls, queue, .ok (.done path result)⟩
        | (queue, .ok false) => ⟨calls, queue, .ok (.leaseLost path)⟩
        | (_, .error e) => handleException lib p file s calls e.text

/-- A job under its renewed lease. -/
def processRenewedJob [PyFloat F] (lib : Library F R) (p : Settings) (j : InboxJob T)
    (s : Surroundings T j.job.jobId) : Outcome F T R :=
  let file := j.job.payloadPath
  match loadEvidence lib.unicode j.inbox j.name s with
  | .ok (item, payload) =>
    if s.supervision.lost then ⟨[], s.supervision.queue, .ok (.leaseLost file)⟩
    else runClaimedJob lib p j.inbox file s item payload
  | .error (.osError _) =>
    rejectEvidence lib p file s (lit "evidence storage is temporarily unavailable")
      p.maxAttempts p.retryDelay
  | .error (.valueError message) => rejectEvidence lib p file s message 1 0
  | .error (.other message) => handleException lib p file s [] message

/-- `_process_claimed_job`. -/
def processClaimedJob [PyFloat F] (lib : Library F R) (p : Settings) (j : InboxJob T)
    (s : Surroundings T j.job.jobId) : Outcome F T R :=
  let file := j.job.payloadPath
  match s.renewal.fault, s.renewal.queue.renew j.job.jobId p.workerId p.leaseSeconds s.renewal.now with
  | some _, _ => ⟨[], s.renewal.queue, .ok (.leaseLost file)⟩
  | none, (queue, .ok false) => ⟨[], queue, .ok (.leaseLost file)⟩
  | none, (queue, .error e) => ⟨[], queue, .error (.valueError (lib.describe e))⟩
  | none, (_, .ok true) => processRenewedJob lib p j s

end SentinelGRC.Pipeline
