import SentinelGRC.Audit.Log

/-!
The evidence ledger: one JSON record a line, in ASCII, each holding the hash of the
record before it and its own. The file lock makes each of the three calls one step.
Looking a record up and appending one take the lock separately.
-/

namespace SentinelGRC.Pipeline

open Python Json
open Audit (File readText)

variable {F : Type}

def genesisHash : Text := List.replicate 64 (ofChar '0')

/-- `record.update(extra)`. -/
def update (record : Fields F) (extra : Option (Fields F)) : Fields F :=
  (extra.getD []).foldl (fun record f => setField f.1 f.2 record) record

variable [PyFloat F]

def canonicalJson (v : Json F) : Except PyError Text := dumps compact v

/-- `hashlib.sha256(canonical_json(record).encode("utf-8")).hexdigest()`. -/
def recordHash (H : Digest) (record : Fields F) : Except PyError Text := do
  let text ← canonicalJson (.obj record)
  let bytes ← encodeUtf8 text
  return H.hexdigest bytes

/-! ### Reading -/

/-- The loop of `verify_ledger`, from a line number and the hash expected next. -/
def verifyLines (F : Type) [PyFloat F] (H : Digest) :
    ℕ → Json F → List Text → Except PyError (Bool × Text)
  | _, _, [] => .ok (true, lit "Ledger integrity verified.")
  | number, previous, line :: rest => do
    match ← loads line with
    | .obj fields =>
      let supplied := get fields (lit "record_hash")
      let record := pop fields (lit "record_hash")
      let calculated ← recordHash H record
      if !(get record (lit "previous_hash")).pyEq previous || !supplied.pyEq (.str calculated) then
        return (false, lit "Ledger integrity failed at record " ++ natText number ++ lit ".")
      else verifyLines F H (number + 1) supplied rest
    | _ => return (false, lit "Ledger record " ++ natText number ++ lit " is not an object.")

def verifyLedger (F : Type) [PyFloat F] (H : Digest) : File → Except PyError (Bool × Text)
  | none => .ok (true, lit "Ledger is empty.")
  | some bytes =>
    let verdict := do
      let text ← readText bytes
      verifyLines F H 1 (.str genesisHash) (splitlines text)
    match verdict with
    | .error .unicodeDecodeError => .ok (false, lit "Ledger could not be parsed safely.")
    | .error .jsonDecodeError => .ok (false, lit "Ledger could not be parsed safely.")
    | .error (.typeError _) => .ok (false, lit "Ledger could not be parsed safely.")
    | verdict => verdict

/-- The first record of the lines with an input hash. -/
def findLine (F : Type) [PyFloat F] (inputHash : Text) : List Text → Except PyError (Option (Fields F))
  | [] => .ok none
  | line :: rest => do
    match ← loads line with
    | .obj record =>
      if (get record (lit "input_hash")).pyEq (.str inputHash) then return some record
      else findLine F inputHash rest
    | _ => throw (.typeError (lit "object has no attribute 'get'"))

def findLedgerRecord (F : Type) [PyFloat F] (H : Digest) (inputHash : Text) :
    File → Except PyError (Option (Fields F))
  | none => .ok none
  | some bytes => do
    let (valid, message) ← verifyLedger F H (some bytes)
    if !valid then throw (.valueError (lit "Cannot inspect invalid ledger: " ++ message))
    let text ← readText bytes
    findLine F inputHash (splitlines text)

/-! ### Appending -/

/-- The record before its own hash is added. -/
def evidenceBody (posture : Fields F) (results : List (Json F)) (previousHash : Json F)
    (extra : Option (Fields F)) (recordedAt : UtcDatetime) : Fields F :=
  update
    [(lit "schema_version", .str (lit "1.0")), (lit "recorded_at", .str recordedAt.isoformatZ),
      (lit "asset", .obj ([lit "asset_id", lit "hostname", lit "owner", lit "criticality",
        lit "collected_at"].map fun key => (key, get posture key))),
      (lit "results", .arr results), (lit "previous_hash", previousHash)]
    extra

def buildEvidence (H : Digest) (posture : Fields F) (results : List (Json F)) (previousHash : Json F)
    (extra : Option (Fields F)) (recordedAt : UtcDatetime) : Except PyError (Fields F) := do
  let record := evidenceBody posture results previousHash extra recordedAt
  let hash ← recordHash H record
  return setField (lit "record_hash") (.str hash) record

/-- The hash of the record that the next one follows, once the ledger is verified. -/
def previousHash (F : Type) [PyFloat F] : File → Except PyError (Json F)
  | none => .ok (.str genesisHash)
  | some bytes => do
    let text ← readText bytes
    if blank text then return .str genesisHash
    match (splitlines text).getLast? with
    | none => throw (.indexError (lit "list index out of range"))
    | some line =>
      match ← loads line with
      | .obj fields =>
        match field (lit "record_hash") fields with
        | some hash => return hash
        | none => throw (.keyError (lit "'record_hash'"))
      | _ => throw (.typeError (lit "string indices must be integers"))

/-- `append_evidence_atomic`: the file after the write, and the record. -/
def appendEvidenceAtomic (H : Digest) (file : File) (posture : Fields F) (results : List (Json F))
    (extra : Option (Fields F)) (recordedAt : UtcDatetime) : Except PyError (File × Fields F) := do
  let (valid, message) ← verifyLedger F H file
  if !valid then throw (.valueError (lit "Refusing to append to invalid ledger: " ++ message))
  let previous ← previousHash F file
  let evidence ← buildEvidence H posture results previous extra recordedAt
  let text ← canonicalJson (.obj evidence)
  let bytes ← encodeUtf8 (text ++ lit "\n")
  return (some (file.getD [] ++ bytes), evidence)

/-! ### Records with an input hash -/

/-- The line reads as a record with this input hash. -/
def hasInputHash (F : Type) [PyFloat F] (inputHash line : Text) : Bool :=
  match loads (F := F) line with
  | .ok (.obj record) => (get record (lit "input_hash")).pyEq (.str inputHash)
  | _ => false

/-- The lines of a file, as its readers split it. -/
def fileLines : File → List Text
  | none => []
  | some bytes =>
    match readText bytes with
    | .ok text => splitlines text
    | .error _ => []

/-- How many records of the ledger have the input hash. -/
def countRecords (F : Type) [PyFloat F] (inputHash : Text) (file : File) : ℕ :=
  (fileLines file).countP (hasInputHash F inputHash)

end SentinelGRC.Pipeline
