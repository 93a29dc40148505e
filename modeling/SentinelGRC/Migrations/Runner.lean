import SentinelGRC.Python.Hashlib
import SentinelGRC.Store.Script
import SentinelGRC.Store.Table

/-!
The SQLite migration runner. Every file whose name is not recorded is run as one script and
then recorded, in the order of the files; what fails on the way rolls back the transaction
that is open, if there is one, and ends the run. The database engine is a parameter: the
statements that it finds in the text of a script, each with its effect.
-/

namespace SentinelGRC.Migrations

open Python Store

/-- A row of `schema_migrations`. -/
structure Migration where
  migrationId : Text
  appliedAt : ℕ
  checksum : Text

/-- The database: the table of the runner, when it is there, and all the rest. -/
structure Database (σ : Type) where
  schemaMigrations : Option (Table Migration Text Migration.migrationId)
  content : σ

/-- A file `*.sql`, by the stem of its name. -/
structure MigrationFile where
  stem : Text
  bytes : Bytes

/-- The statements of a script. -/
abbrev Engine (σ : Type) := Text → List (Statement (Database σ) PyError)

/-! ### The driver -/

/-- The driver's own transaction control, which the engine sees only in a transaction. -/
def whenOpen {D ε : Type} (m : Session D ε Unit) : Session D ε Unit := fun c =>
  if c.transaction.isSome then m c else (.ok (), c)

/-- A statement that changes rows, for which the driver opens a transaction. -/
def modify {D ε : Type} (faults : ℕ → Option ε) (f : D → Except ε (Unit × D)) : Session D ε Unit :=
  fun c =>
    if c.transaction.isSome then Session.execute faults f c
    else (Session.begin faults >>= fun _ => Session.execute faults f) c

variable {σ : Type} (H : Digest) (engine : Engine σ) (faults : ℕ → Option PyError)
  (now : Text → ℕ)

/-- `connection.executescript(sql)`. -/
def executescript (sql : Text) : Session (Database σ) PyError Unit := do
  whenOpen (Session.commit faults)
  Script.execAll .operationalError faults (engine sql)

/-! ### The runner -/

/-- `CREATE TABLE IF NOT EXISTS schema_migrations`. -/
def createTable (db : Database σ) : Database σ :=
  { db with schemaMigrations := some (db.schemaMigrations.getD Table.empty) }

def connect : Session (Database σ) PyError Unit := do
  Session.execute faults fun db => .ok ((), createTable db)
  whenOpen (Session.commit faults)

/-- The checksum recorded for a migration. -/
def recorded (migrationId : Text) (db : Database σ) : Except PyError (Option Text) :=
  match db.schemaMigrations with
  | some table => .ok ((table.find? migrationId).map Migration.checksum)
  | none => .error .operationalError

/-- `INSERT INTO schema_migrations`. -/
def record (m : Migration) (db : Database σ) : Except PyError (Unit × Database σ) :=
  match db.schemaMigrations with
  | some table =>
    match table.insert? m with
    | some table' => .ok ((), { db with schemaMigrations := some table' })
    | none => .error .integrityError
  | none => .error .operationalError

/-- The body of the `try` statement. -/
def migrate (migrationId sql checksum : Text) : Session (Database σ) PyError Unit := do
  executescript engine faults sql
  modify faults (record ⟨migrationId, now migrationId, checksum⟩)
  whenOpen (Session.commit faults)

/-- One file; whether it was applied. -/
def applyFile (file : MigrationFile) : Session (Database σ) PyError Bool := do
  let sql ← Session.lift ((decodeUtf8 file.bytes).map universalNewlines)
  let encoded ← Session.lift (encodeUtf8 sql)
  let checksum := H.hexdigest encoded
  match ← Session.query faults (recorded file.stem) with
  | some applied =>
    if applied ≠ checksum then
      Session.raise (.valueError (lit "migration checksum mismatch: " ++ file.stem))
    else return false
  | none =>
    Session.handle (migrate engine faults now file.stem sql checksum) fun e => do
      whenOpen (Session.rollback faults)
      Session.raise e
    return true

def applyFiles : List MigrationFile → Session (Database σ) PyError (List Text)
  | [] => pure []
  | file :: rest => do
    let applied ← applyFile H engine faults now file
    let later ← applyFiles rest
    return if applied then file.stem :: later else later

/-- `MigrationRunner.apply`, over the files in the order of their paths. -/
def apply (files : List MigrationFile) : Session (Database σ) PyError (List Text) :=
  Session.scope do
    connect faults
    applyFiles H engine faults now files

end SentinelGRC.Migrations
