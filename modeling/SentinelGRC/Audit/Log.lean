import SentinelGRC.Python.Datetime
import SentinelGRC.Python.Dict
import SentinelGRC.Python.Hashlib
import SentinelGRC.Python.JsonText
import SentinelGRC.Python.JsonLoads
import SentinelGRC.Transition.Machine

/-!
The append-only audit log: one JSON record a line, each holding the hash of the
record before it and its own. The file is missing or holds bytes, as on a system
whose text files end lines with `\n`. The lock makes each call one step; a call
that raises has written nothing.
-/

namespace SentinelGRC.Audit

open Python Json Transition

/-! ### Canonical JSON -/

section Canonical

variable {F : Type}

mutual
/-- `normalize` on a value that `json` can hold. -/
def normalize : Json F → Except PyError (Json F)
  | .obj fs => (normalizeFields fs).map fun fs => .obj (fs.insertionSort fieldLe)
  | .arr xs => (normalizeItems xs).map .arr
  | .float (.finite x) => .ok (.float (.finite x))
  | .float _ => .error (.valueError (lit "non-finite numbers are not permitted in audit records"))
  | .null => .ok .null
  | .bool b => .ok (.bool b)
  | .int n => .ok (.int n)
  | .str s => .ok (.str s)
termination_by structural v => v

def normalizeItems : List (Json F) → Except PyError (List (Json F))
  | [] => .ok []
  | x :: rest => do
    let x ← normalize x
    let rest ← normalizeItems rest
    return x :: rest
termination_by structural v => v

def normalizeFields : Fields F → Except PyError (Fields F)
  | [] => .ok []
  | f :: rest => do
    let f ← normalizeField f
    let rest ← normalizeFields rest
    return f :: rest
termination_by structural v => v

def normalizeField : Text × Json F → Except PyError (Text × Json F)
  | (k, v) => (normalize v).map fun v => (k, v)
termination_by structural v => v
end

variable [PyFloat F]

/-- `separators=(",", ":")` with `ensure_ascii=False`. -/
def recordStyle : Style := ⟨false, false⟩

def canonicalJson (v : Json F) : Except PyError Text := do
  let v ← normalize v
  dumps recordStyle v

/-- `hashlib.sha256(canonical_json(record).encode("utf-8")).hexdigest()`. -/
def recordHash (H : Digest) (record : Fields F) : Except PyError Text := do
  let text ← canonicalJson (.obj record)
  let bytes ← encodeUtf8 text
  return H.hexdigest bytes

end Canonical

/-! ### Actors and arguments -/

inductive ActorType
  | human
  | agent
  | system
  deriving DecidableEq

def ActorType.text : ActorType → Text
  | .human => lit "human"
  | .agent => lit "agent"
  | .system => lit "system"

structure AuthenticatedActor where
  actorId : Text
  actorType : ActorType
  role : Option Text
  authMethod : Text
  actorId_nonblank : blank actorId = false
  authMethod_nonblank : blank authMethod = false

variable {F : Type}

def AuthenticatedActor.snapshot (a : AuthenticatedActor) : Json F :=
  .obj [(lit "actor_id", .str a.actorId), (lit "actor_type", .str a.actorType.text),
    (lit "role", match a.role with | some role => .str role | none => .null),
    (lit "auth_method", .str a.authMethod)]

/-- `str | AuthenticatedActor`. -/
inductive Actor
  | name (t : Text)
  | authenticated (a : AuthenticatedActor)

/-- `actor.snapshot() if isinstance(actor, AuthenticatedActor) else actor`. -/
def Actor.value : Actor → Json F
  | .name t => .str t
  | .authenticated a => a.snapshot

/-- A JSON object, without repeated keys at any depth. -/
abbrev Details (F : Type) := {fs : Fields F // Distinct (.obj fs)}

/-- `details or {}`. -/
def orEmpty : Option (Details F) → Fields F
  | some details => details.val
  | none => []

/-! ### Reading -/

/-- The log file, when there is one. -/
abbrev File := Option Bytes

def genesisHash : Text := List.replicate 64 (ofChar '0')

/-- `path.read_text(encoding="utf-8")`. -/
def readText (bytes : Bytes) : Except PyError Text := do
  let text ← decodeUtf8 bytes
  return universalNewlines text

variable [PyFloat F]

/-- The loop of `_verify_unlocked`, from a line number and the hash expected next. -/
def verifyLines (F : Type) [PyFloat F] (H : Digest) :
    ℕ → Json F → List Text → Except PyError (Bool × Text)
  | _, _, [] => .ok (true, lit "Audit log integrity verified.")
  | number, previous, line :: rest => do
    match ← loads line with
    | .obj fields =>
      let supplied := get fields (lit "event_hash")
      let record := pop fields (lit "event_hash")
      let calculated ← recordHash H record
      if !(get record (lit "previous_hash")).pyEq previous || !supplied.pyEq (.str calculated) then
        return (false, lit "Audit integrity failed at record " ++ natText number ++ lit ".")
      else verifyLines F H (number + 1) supplied rest
    | _ => return (false, lit "Audit record " ++ natText number ++ lit " is not an object.")

/-- `_verify_unlocked`, also the result of `verify`. -/
def verify (F : Type) [PyFloat F] (H : Digest) : File → Except PyError (Bool × Text)
  | none => .ok (true, lit "Audit log is empty.")
  | some bytes =>
    let verdict := do
      let text ← readText bytes
      verifyLines F H 1 (.str genesisHash) (splitlines text)
    match verdict with
    | .error .unicodeDecodeError => .ok (false, lit "Audit log could not be parsed safely.")
    | .error .jsonDecodeError => .ok (false, lit "Audit log could not be parsed safely.")
    | .error (.typeError _) => .ok (false, lit "Audit log could not be parsed safely.")
    | verdict => verdict

/-- `_last_hash_unlocked`. -/
def lastHash (H : Digest) : File → Except PyError (Json F)
  | none => .ok (.str genesisHash)
  | some bytes => do
    let text ← readText bytes
    if blank text then return .str genesisHash
    let (valid, message) ← verify F H (some bytes)
    if !valid then
      throw (.valueError (lit "Refusing to append to invalid audit log: " ++ message))
    match (splitlines text).getLast? with
    | none => throw (.indexError (lit "list index out of range"))
    | some line =>
      match ← loads line with
      | .obj fields =>
        match field (lit "event_hash") fields with
        | some hash => return hash
        | none => throw (.keyError (lit "'event_hash'"))
      | _ => throw (.typeError (lit "string indices must be integers"))

/-- The first record of the lines with an event id. -/
def findLine (eventId : Text) : List Text → Except PyError (Option (Fields F))
  | [] => .ok none
  | line :: rest => do
    match ← loads line with
    | .obj record =>
      if (get record (lit "event_id")).pyEq (.str eventId) then return some record
      else findLine eventId rest
    | _ => throw (.typeError (lit "object has no attribute 'get'"))

/-- `_find_event_unlocked`. -/
def findEvent (H : Digest) (eventId : Text) : File → Except PyError (Option (Fields F))
  | none => .ok none
  | some bytes => do
    let text ← readText bytes
    if blank text then return none
    let (valid, message) ← verify F H (some bytes)
    if !valid then throw (.valueError (lit "Refusing to read invalid audit log: " ++ message))
    findLine eventId (splitlines text)

/-! ### Appending -/

/-- The record before its own hash is added. -/
def recordBody (eventId : Text) (recordedAt : UtcDatetime) (eventType : Text) (actor : Actor)
    (target : Text) (details : Option (Details F)) (previousHash : Json F) : Fields F :=
  [(lit "schema_version", .str (lit "1.0")), (lit "event_id", .str eventId),
    (lit "recorded_at", .str recordedAt.isoformatZ), (lit "event_type", .str eventType),
    (lit "actor", actor.value), (lit "target", .str target), (lit "details", .obj (orEmpty details)),
    (lit "previous_hash", previousHash)]

/-- `_append_unlocked`: the file after the write, and the record. -/
def appendRecord (H : Digest) (file : File) (eventId : Text) (recordedAt : UtcDatetime)
    (eventType : Text) (actor : Actor) (target : Text) (details : Option (Details F)) :
    Except PyError (File × Fields F) := do
  let previousHash ← lastHash H file
  let body := recordBody eventId recordedAt eventType actor target details previousHash
  let eventHash ← recordHash H body
  let record := body ++ [(lit "event_hash", .str eventHash)]
  let text ← canonicalJson (.obj record)
  let bytes ← encodeUtf8 (text ++ lit "\n")
  return (some (file.getD [] ++ bytes), record)

/-- The clock readings of a call: `datetime.now(timezone.utc).timestamp()` as `str` prints
it, and the instant of the record. -/
structure Stamp where
  timestamp : Numeral
  timestamp_valid : timestamp.Valid
  recordedAt : UtcDatetime

/-- `append`. -/
def append (H : Digest) (file : File) (now : Stamp) (eventType : Text) (actor : Actor)
    (target : Text) (details : Option (Details F)) : Except PyError (File × Fields F) := do
  let seed ← encodeUtf8 (now.timestamp.text ++ lit ":" ++ eventType ++ lit ":" ++ target)
  let eventId := (H.hexdigest seed).take 24
  appendRecord H file eventId now.recordedAt eventType actor target details

/-- `append_idempotent`: the file, the record and whether it was added. -/
def appendIdempotent (H : Digest) (file : File) (now : Stamp) (eventId eventType : Text)
    (actor : Actor) (target : Text) (details : Option (Details F)) :
    Except PyError (File × Fields F × Bool) := do
  if blank eventId then
    throw (.valueError (lit "event_id is required for idempotent audit append"))
  match ← findEvent H eventId file with
  | some existing =>
    let same := (get existing (lit "event_type")).pyEq (.str eventType) &&
      (get existing (lit "actor")).pyEq actor.value && (get existing (lit "target")).pyEq (.str target) &&
      (get existing (lit "details")).pyEq (.obj (orEmpty details))
    if !same then
      throw (.valueError (lit "audit event_id is already bound to different content"))
    return (file, existing, false)
  | none =>
    let (file, record) ← appendRecord H file eventId now.recordedAt eventType actor target details
    return (file, record, true)

/-! ### Calls -/

/-- A call of `append` or, with an event id, of `append_idempotent`. -/
structure Call (F : Type) where
  eventId : Option Text
  now : Stamp
  eventType : Text
  actor : Actor
  target : Text
  details : Option (Details F)

def perform (H : Digest) (file : File) (c : Call F) : Except PyError (File × Fields F × Bool) :=
  match c.eventId with
  | none => (append H file c.now c.eventType c.actor c.target c.details).map
      fun (file, record) => (file, record, true)
  | some eventId => appendIdempotent H file c.now eventId c.eventType c.actor c.target c.details

/-- Calls one after the other; the answer is the record and whether it was added. -/
def auditLog (F : Type) [PyFloat F] (H : Digest) :
    Machine File (Call F) (Except PyError (Fields F × Bool)) where
  step := fun file c =>
    match perform H file c with
    | .ok (file, record, added) => (file, .ok (record, added))
    | .error e => (file, .error e)

end SentinelGRC.Audit
