import SentinelGRC.Pipeline.ClaimedJob
import SentinelGRC.Store.Table
import SentinelGRC.Transition.Machine

/-!
The publication of accepted payloads. A request reserves a row for its payload, moves the
payload into an inbox under its evidence id and commits the row; a sweep commits pending rows
whose file it finds with the bytes of their payload. Requests and sweeps take one step at a
time, in any order, and can end before each of them. Rows and files survive.
-/

namespace SentinelGRC.Ingestion

open Python Store Transition
open Pipeline (AcceptedPayload PublicationStatus)

/-- Readings of `time.time()`, with the test `current - accepted_at < grace_seconds`. The
difference of two of them is negative exactly when the first is earlier. -/
class Readings (T : Type) extends LinearOrder T where
  younger : T → T → ℕ → Bool
  younger_zero : ∀ current acceptedAt : T, younger current acceptedAt 0 = true ↔ current < acceptedAt

instance : Readings ℤ where
  younger current acceptedAt grace := decide (current - acceptedAt < grace)
  younger_zero current acceptedAt := by
    rw [decide_eq_true_iff]
    omega

variable {D T : Type}

/-! ### The state store -/

abbrev AcceptedPayloads (T : Type) := Table (AcceptedPayload T) Text AcceptedPayload.payloadHash

/-- `get_evidence_id`. -/
def getEvidenceId (t : AcceptedPayloads T) (payloadHash : Text) : Option Text :=
  match t.find? payloadHash with
  | some r => if r.status = .committed then some r.evidenceId else none
  | none => none

/-- `begin_payload`; the row is inserted unless there is one. -/
def beginPayload (t : AcceptedPayloads T) (payloadHash evidenceId : Text) (current : T) :
    Except PyError (AcceptedPayloads T) :=
  let t := (t.insert? ⟨payloadHash, evidenceId, current, .pending⟩).getD t
  match t.find? payloadHash with
  | some r => if r.evidenceId = evidenceId then .ok t else .error .integrityError
  | none => .error .integrityError

/-- The `UPDATE` of `commit_payload`, on the row of the hash. -/
def commitRow (evidenceId : Text) (r : AcceptedPayload T) : AcceptedPayload T :=
  if r.evidenceId = evidenceId then { r with status := .committed } else r

theorem payloadHash_commitRow (evidenceId : Text) (r : AcceptedPayload T) :
    (commitRow evidenceId r).payloadHash = r.payloadHash := by
  unfold commitRow
  split_ifs <;> rfl

/-- `commit_payload`; the result tells whether a row was updated. -/
def commitPayload (t : AcceptedPayloads T) (payloadHash evidenceId : Text) :
    AcceptedPayloads T × Bool :=
  (t.modify payloadHash (commitRow evidenceId) (payloadHash_commitRow evidenceId),
    (t.find? payloadHash).any fun r => r.evidenceId = evidenceId)

/-- `find_payload_by_evidence_id`. -/
def findPayloadByEvidenceId (t : AcceptedPayloads T) (evidenceId : Text) :
    Option (AcceptedPayload T) :=
  t.rows.find? fun r => r.evidenceId = evidenceId

/-! ### The inboxes -/

/-- A file `<stem>.json` of a directory. -/
structure EvidenceFile (D : Type) where
  directory : D
  stem : Text
  bytes : Bytes

abbrev Inboxes (D : Type) := Table (EvidenceFile D) (D × Text) fun f => (f.directory, f.stem)

/-- `sorted(Path(directory).glob("*.json"))`, as stems. -/
def directoryCandidates [DecidableEq D] (files : Inboxes D) (directory : D) : List Text :=
  ((files.rows.filter fun f => f.directory = directory).map EvidenceFile.stem).insertionSort
    fun s t => Json.keyLe s t = true

/-! ### Requests -/

inductive AnswerStatus
  | accepted
  | duplicate
  deriving DecidableEq

/-- What a request does next in `_persist_validated_body`. The temporary file has a random name
that no other step reads. -/
inductive RequestPhase
  | getEvidenceId
  | beginPayload
  | writeTemporary
  | replace
  | commitPayload
  /-- The check after a commit that updated no row. -/
  | confirm
  | answer (status : AnswerStatus) (evidenceId : Text)

/-- A request whose body was validated. -/
structure Request (D : Type) where
  directory : D
  body : Bytes
  phase : RequestPhase

/-- `payload_hash[:24]`. -/
def evidenceIdOf (H : Digest) (body : Bytes) : Text := (H.hexdigest body).take 24

inductive PublicationReply
  | answered (status : AnswerStatus) (evidenceId : Text)
  /-- `503`. -/
  | unavailable
  | none

/-- The rows and the files. -/
structure Publications (D T : Type) where
  payloads : AcceptedPayloads T
  inboxes : Inboxes D

/-- One step of a request: the rows and files, and its next phase or the reply that ends it. -/
def requestStep [DecidableEq D] (H : Digest) (p : Publications D T) (request : Request D)
    (current : T) : Publications D T × (RequestPhase ⊕ PublicationReply) :=
  let payloadHash := H.hexdigest request.body
  let evidenceId := evidenceIdOf H request.body
  match request.phase with
  | .getEvidenceId =>
    match (getEvidenceId p.payloads payloadHash).filter fun id => !id.isEmpty with
    | some existingId => (p, .inl (.answer .duplicate existingId))
    | none => (p, .inl .beginPayload)
  | .beginPayload =>
    match beginPayload p.payloads payloadHash evidenceId current with
    | .ok payloads => ({ p with payloads }, .inl .writeTemporary)
    | .error _ => (p, .inr .unavailable)
  | .writeTemporary => (p, .inl .replace)
  | .replace =>
    ({ p with inboxes := p.inboxes.put ⟨request.directory, evidenceId, request.body⟩ },
      .inl .commitPayload)
  | .commitPayload =>
    let (payloads, updated) := commitPayload p.payloads payloadHash evidenceId
    ({ p with payloads }, .inl (if updated then .answer .accepted evidenceId else .confirm))
  | .confirm =>
    if getEvidenceId p.payloads payloadHash = some evidenceId then
      (p, .inl (.answer .accepted evidenceId))
    else (p, .inr .unavailable)
  | .answer status evidenceId => (p, .inr (.answered status evidenceId))

/-! ### Sweeps -/

/-- `is_evidence_filename`. -/
def isEvidenceFilename (value : Text) : Bool := value.length == 24 && value.all isLowerHex

/-- `_pending_candidate`, before the file is read. -/
def pendingRecord [Readings T] (t : AcceptedPayloads T) (evidenceId : Text) (grace : ℕ) (current : T) :
    Option (AcceptedPayload T) :=
  if !isEvidenceFilename evidenceId then none
  else
    match findPayloadByEvidenceId t evidenceId with
    | none => none
    | some record =>
      if record.status = .committed then none
      else if Readings.younger current record.acceptedAt grace then none
      else some record

/-- What a sweep does next with its first candidate. -/
inductive SweepPhase (T : Type)
  | find
  | read (record : AcceptedPayload T)
  | commit (record : AcceptedPayload T)

/-- A call of `reconcile_pending_publications`: the directories and the candidates of the
current one that are still to come. -/
structure Sweep (D T : Type) where
  grace : ℕ
  current : T
  directories : List D
  /-- The directory of the candidates with their stems. -/
  candidates : List (D × Text)
  phase : SweepPhase T
  reconciled : List Text

/-- The first candidate is done with. -/
def Sweep.drop (sweep : Sweep D T) : Sweep D T :=
  { sweep with candidates := sweep.candidates.tail, phase := .find }

/-- `read_verified_evidence`: the file is there and its bytes have the hash. -/
def isVerified [DecidableEq D] (H : Digest) (files : Inboxes D) (path : D × Text)
    (expectedHash : Text) : Bool :=
  (files.find? path).any fun f => H.hexdigest f.bytes = expectedHash

/-- One step of a sweep. -/
def sweepStep [DecidableEq D] [Readings T] (H : Digest) (p : Publications D T) (sweep : Sweep D T) :
    Publications D T × Sweep D T :=
  match sweep.candidates with
  | [] =>
    match sweep.directories with
    | [] => (p, sweep)
    | directory :: rest =>
      (p, { sweep with
        directories := rest
        candidates := (directoryCandidates p.inboxes directory).map fun s => (directory, s)
        phase := .find })
  | path :: _ =>
    match sweep.phase with
    | .find =>
      match pendingRecord p.payloads path.2 sweep.grace sweep.current with
      | some record => (p, { sweep with phase := .read record })
      | none => (p, sweep.drop)
    | .read record =>
      if isVerified H p.inboxes path record.payloadHash then (p, { sweep with phase := .commit record })
      else (p, sweep.drop)
    | .commit record =>
      let (payloads, updated) := commitPayload p.payloads record.payloadHash path.2
      ({ p with payloads },
        { sweep.drop with reconciled := sweep.reconciled ++ if updated then [path.2] else [] })

/-- `OSError` in the next step of a sweep: the candidate, or the listing of the directory, is
passed over. -/
def Sweep.passOver (sweep : Sweep D T) : Sweep D T :=
  match sweep.candidates with
  | [] => { sweep with directories := sweep.directories.tail, phase := .find }
  | _ :: _ => sweep.drop

/-! ### Interleavings -/

/-- The rows and the files, the requests in flight, and the sweeps, of which a dead one is `none`. -/
structure PublicationState (D T : Type) extends Publications D T where
  requests : List (Request D)
  sweeps : List (Option (Sweep D T))

def PublicationState.empty : PublicationState D T := ⟨⟨Table.empty, Table.empty⟩, [], []⟩

inductive PublicationAction (D T : Type)
  /-- A client sends a body, perhaps again. -/
  | request (directory : D) (body : Bytes)
  /-- The next step of a request, at a reading of the clock. -/
  | advance (request : ℕ) (current : T)
  /-- An exception in the next step of a request. -/
  | fail (request : ℕ)
  /-- The process of a request dies; that of a server takes all of its requests along. -/
  | crash (request : ℕ)
  | reconcile (directories : List D) (grace : ℕ) (current : T)
  /-- The next step of a sweep. -/
  | sweep (sweep : ℕ)
  /-- `OSError` in the next step of a sweep. -/
  | unreadable (sweep : ℕ)
  /-- The process of a sweep dies. -/
  | stop (sweep : ℕ)

variable [DecidableEq D]

/-- The step of a request in the state: it goes on or ends. -/
def PublicationState.advance (H : Digest) (s : PublicationState D T) (i : ℕ) (request : Request D)
    (current : T) : PublicationState D T × PublicationReply :=
  match requestStep H s.toPublications request current with
  | (p, .inl phase) =>
    ({ s with toPublications := p, requests := s.requests.set i { request with phase } }, .none)
  | (p, .inr reply) =>
    ({ s with toPublications := p, requests := s.requests.eraseIdx i }, reply)

variable [Readings T]

def publicationStep (H : Digest) (s : PublicationState D T) :
    PublicationAction D T → PublicationState D T × PublicationReply
  | .request directory body =>
    ({ s with requests := s.requests ++ [⟨directory, body, .getEvidenceId⟩] }, .none)
  | .advance i current =>
    match s.requests[i]? with
    | some request => s.advance H i request current
    | none => (s, .none)
  | .fail i => ({ s with requests := s.requests.eraseIdx i }, .unavailable)
  | .crash i => ({ s with requests := s.requests.eraseIdx i }, .none)
  | .reconcile directories grace current =>
    ({ s with sweeps := s.sweeps ++ [some ⟨grace, current, directories, [], .find, []⟩] }, .none)
  | .sweep i =>
    match s.sweeps[i]? with
    | some (some sweep) =>
      let (p, sweep) := sweepStep H s.toPublications sweep
      ({ s with toPublications := p, sweeps := s.sweeps.set i (some sweep) }, .none)
    | _ => (s, .none)
  | .unreadable i =>
    match s.sweeps[i]? with
    | some (some sweep) => ({ s with sweeps := s.sweeps.set i (some sweep.passOver) }, .none)
    | _ => (s, .none)
  | .stop i => ({ s with sweeps := s.sweeps.set i none }, .none)

def publication (D T : Type) [DecidableEq D] [Readings T] (H : Digest) :
    Machine (PublicationState D T) (PublicationAction D T) PublicationReply := ⟨publicationStep H⟩

end SentinelGRC.Ingestion
