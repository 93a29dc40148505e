import Mathlib.Data.List.Perm.Basic
import SentinelGRC.Contracts.Fields
import SentinelGRC.Delivery.LiveGate
import SentinelGRC.Governance.EventLog
import SentinelGRC.Migrations.Runner
import SentinelGRC.Python.JsonEqual
import SentinelGRC.Python.JsonWhole
import SentinelGRC.Python.Str

/-!
Snapshots of a database for a restore. A verifier reads, in one read-only transaction, the
recorded migrations, the rows of a synthetic prefix in eleven tables and one finding, and keeps
counts and hashes of them. Two snapshots, printed and read back, are compared field by field.
-/

namespace SentinelGRC.Delivery

open Python Json
open Contracts (isIdentifier sortedTexts)
open Migrations (MigrationFile)

variable {F : Type}

/-! ### Rows -/

/-- What a column of text, integers or floats holds. -/
def isCell : Json F → Bool
  | .null | .float _ => true
  | .int n => -9223372036854775808 ≤ n && n < 9223372036854775808
  | .str t => t.all fun c => !isSurrogate c
  | _ => false

/-- A row that a query answers. The columns of the tables that are read hold text, integers and
floats, so `json` prints every cell by itself. -/
structure Row (F : Type) where
  cells : Fields F
  columns_nodup : (cells.map Prod.fst).Nodup
  columns_scalar : ∀ c ∈ cells, Scalar c.1
  cells_stored : ∀ c ∈ cells, isCell c.2 = true

/-- `_canonical_rows`, before the hash. -/
def canonicalRowBytes [PyFloat F] (rows : List (Row F)) : Except PyError Bytes := do
  let texts ← rows.mapM fun row => dumps compact (.obj row.cells)
  encodeUtf8 (← dumps compact (.arr ((sortedTexts texts).map (Json.str (F := F)))))

/-- `_canonical_rows`. -/
def canonicalRows [PyFloat F] (H : Digest) (rows : List (Row F)) : Except PyError Text :=
  (canonicalRowBytes rows).map H.hexdigest

/-- `left(column, length(?)) = ?`. -/
def Row.beginsWith (column text : Text) (row : Row F) : Bool :=
  match get row.cells column with
  | .str t => t.take text.length == text
  | _ => false

/-- `column = ?`. -/
def Row.holds (column text : Text) (row : Row F) : Bool :=
  match get row.cells column with
  | .str t => t == text
  | _ => false

theorem forall_mem_filter {α : Type} {P : α → Prop} {xs : List α} (h : ∀ x ∈ xs, P x) (p : α → Bool) :
    ∀ x ∈ xs.filter p, P x :=
  fun x hx => h x (List.mem_of_mem_filter hx)

theorem nodup_keys_filter {fs : Fields F} (h : (fs.map Prod.fst).Nodup) (p : Text × Json F → Bool) :
    ((fs.filter p).map Prod.fst).Nodup :=
  h.sublist (List.filter_sublist.map Prod.fst)

/-- The columns of a query. -/
def Row.project (columns : List Text) (row : Row F) : Row F where
  cells := row.cells.filter fun c => c.1 ∈ columns
  columns_nodup := nodup_keys_filter row.columns_nodup _
  columns_scalar := forall_mem_filter row.columns_scalar _
  cells_stored := forall_mem_filter row.cells_stored _

/-! ### The database -/

/-- What the connection says of its server. -/
structure TargetRow where
  databaseName : Text
  databaseOid : ℤ
  serverAddress : Option Text
  serverPort : Option ℤ

/-- What a connection answers in one read-only transaction. -/
structure Postgres (F : Type) where
  /-- `transaction_isolation` and `transaction_read_only`. -/
  settings : Option (Text × Text)
  target : Option TargetRow
  schemaMigrations : List (Text × Text)
  tableNames : List Text
  rows : Text → List (Row F)
  migrationIds_nodup : (schemaMigrations.map Prod.fst).Nodup
  schemaMigrations_scalar : ∀ m ∈ schemaMigrations, Scalar m.1 ∧ Scalar m.2

/-- The arguments of a verifier, as its constructor leaves them. -/
structure RestoreVerifier (F : Type) where
  expectedHostname : Text
  expectedTargetResourceId : Text
  evidenceHmacKey : Bytes
  expectedMigrations : Fields F

/-- The environment of a snapshot: what the verifier is built from, and what it looks for. -/
structure SnapshotRequest where
  expectedHostname : Text
  expectedTargetResourceId : Text
  evidenceHmacKey : Bytes
  migrations : List MigrationFile
  syntheticPrefix : Text
  findingId : Text

/-- One entry of the `dict` that `expected_migration_checksums` builds. -/
def addChecksum (H : Digest) (checksums : Fields F) (file : MigrationFile) :
    Except PyError (Fields F) := do
  let text ← (decodeUtf8 file.bytes).map universalNewlines
  let encoded ← encodeUtf8 text
  return setField file.stem (.str (H.hexdigest encoded)) checksums

/-- `expected_migration_checksums`, over the files in the order of their paths. -/
def expectedMigrationChecksums (H : Digest) (files : List MigrationFile) :
    Except PyError (Fields F) :=
  if files = [] then .error (.valueError (lit "PostgreSQL migrations directory is empty"))
  else files.foldlM (addChecksum H) []

/-- `REQUIRED_POSTGRES_TABLES`. -/
def requiredPostgresTables : List Text :=
  [lit "action_items", lit "approval_records", lit "audit_exports", lit "closure_records",
    lit "connector_events", lit "findings", lit "governance_events", lit "governance_evidence",
    lit "governance_outbox", lit "outbox_worker_heartbeats", lit "pipeline_jobs",
    lit "risk_records", lit "risk_treatments", lit "schema_migrations", lit "user_api_keys",
    lit "users", lit "verification_records"]

/-- `SYNTHETIC_TABLE_KEYS`. -/
def syntheticTableKeys : List (Text × Text) :=
  [(lit "findings", lit "finding_id"), (lit "risk_records", lit "finding_id"),
    (lit "risk_treatments", lit "finding_id"), (lit "approval_records", lit "finding_id"),
    (lit "action_items", lit "finding_id"), (lit "governance_evidence", lit "finding_id"),
    (lit "verification_records", lit "finding_id"), (lit "closure_records", lit "finding_id"),
    (lit "governance_events", lit "finding_id"), (lit "governance_outbox", lit "finding_id"),
    (lit "audit_exports", lit "finding_id")]

/-- `_begin_snapshot`; the settings are ASCII. -/
def beginSnapshot (db : Postgres F) : Except GateError Unit :=
  match db.settings with
  | some (isolationLevel, readOnly) =>
    if asciiTables.lower isolationLevel ≠ lit "repeatable read" ∨
        asciiTables.lower readOnly ∉ [lit "on", lit "true"] then
      gateError "PostgreSQL snapshot transaction is not read-only"
    else .ok ()
  | none => gateError "PostgreSQL snapshot transaction is not read-only"

/-- `_validated_target_identity`, where `compressed` is the `ipaddress` form of an address. -/
def validatedTargetIdentity (compressed : Text → Option Text) (target : Option TargetRow) :
    Except GateError (Text × ℤ × Text × ℤ) :=
  match target with
  | none => gateError "PostgreSQL target identity is unavailable"
  | some target =>
    let invalidDatabaseName :=
      target.databaseName.isEmpty || target.databaseName.any fun c => c.val < 0x20 || c.val == 0x7F
    match target.serverPort with
    | none => gateError "PostgreSQL target identity is invalid"
    | some serverPort =>
      if invalidDatabaseName ∨ target.databaseOid ≤ 0 ∨ serverPort < 1 ∨ 65535 < serverPort then
        gateError "PostgreSQL target identity is invalid"
      else match compressed (strOf target.serverAddress) with
        | none => gateError "PostgreSQL target identity is invalid"
        | some address => .ok (target.databaseName, target.databaseOid, address, serverPort)

variable [PyFloat F] (H : Digest) (compressed : Text → Option Text)

/-- `_hmac_sha256`. -/
def hmacSha256 (key : Bytes) (value : Json F) : Except PyError Text := do
  let canonical ← encodeUtf8 (← dumps compact value)
  return hmacHex H key canonical

/-- `_target_identity_hmac`. -/
def targetIdentityHmac (verifier : RestoreVerifier F) (db : Postgres F) : Except GateError Text := do
  let (databaseName, databaseOid, address, serverPort) ← validatedTargetIdentity compressed db.target
  raisedByGate (hmacSha256 H verifier.evidenceHmacKey (.obj [
    (lit "database_name", .str databaseName),
    (lit "database_oid", .int databaseOid),
    (lit "expected_hostname", .str verifier.expectedHostname),
    (lit "resource_id", .str verifier.expectedTargetResourceId),
    (lit "server_address", .str address),
    (lit "server_port", .int serverPort),
    (lit "version", .str (lit "sentinel.postgres.target.v1"))] : Json F))

/-! ### Snapshots -/

omit [PyFloat F] in
/-- The rows of a table that a snapshot covers. -/
def Postgres.synthetic (db : Postgres F) (syntheticPrefix : Text) (entry : Text × Text) :
    List (Row F) :=
  (db.rows entry.1).filter (Row.beginsWith entry.2 syntheticPrefix)

omit [PyFloat F] in
/-- The row of the application read. -/
def Postgres.applicationRead (db : Postgres F) (findingId : Text) : Option (Row F) :=
  ((db.rows (lit "findings")).find? (Row.holds (lit "finding_id") findingId)).map
    (Row.project [lit "finding_id", lit "status", lit "updated_at"])

/-- What a snapshot keeps of a table. -/
def tableEvidence (db : Postgres F) (syntheticPrefix : Text) (entry : Text × Text) :
    Except GateError (Text × Json F) := do
  let rows := db.synthetic syntheticPrefix entry
  let sha256 ← raisedByGate (canonicalRows H rows)
  return (entry.1, .obj [(lit "count", .int rows.length), (lit "sha256", .str sha256)])

/-- What `_snapshot_in_transaction` returns. -/
def snapshotDocument (observedAt targetIdentity : Text) (migrations : Fields F)
    (syntheticPrefix : Text) (synthetic : Fields F) (applicationRead : Text) : Fields F :=
  [(lit "schema_version", .str (lit "sentinel.live_gate.postgres_restore.v2")),
    (lit "observed_at", .str observedAt),
    (lit "target_identity_hmac_sha256", .str targetIdentity),
    (lit "migration_checksums", .obj migrations),
    (lit "required_table_count", .int requiredPostgresTables.length),
    (lit "synthetic_prefix", .str syntheticPrefix),
    (lit "synthetic_tables", .obj synthetic),
    (lit "application_read_sha256", .str applicationRead)]

omit [PyFloat F] in
/-- The migrations that the database has recorded. -/
def Postgres.actualMigrations (db : Postgres F) : Fields F :=
  db.schemaMigrations.map fun row => (row.1, .str row.2)

/-- `_snapshot_in_transaction`. -/
def snapshotInTransaction (verifier : RestoreVerifier F) (db : Postgres F)
    (syntheticPrefix findingId observedAt : Text) : Except GateError (Fields F) := do
  beginSnapshot db
  let targetIdentity ← targetIdentityHmac H compressed verifier db
  if !(Json.obj db.actualMigrations).pyEq (.obj verifier.expectedMigrations) then
    gateError "PostgreSQL migration checksums do not match"
  else if requiredPostgresTables.any fun name => name ∉ db.tableNames then
    gateError "PostgreSQL required schema objects are missing"
  else do
    let synthetic ← syntheticTableKeys.mapM (tableEvidence H db syntheticPrefix)
    match db.applicationRead findingId with
    | none => gateError "synthetic application read did not find the record"
    | some finding => do
      let applicationRead ← raisedByGate (canonicalRows H [finding])
      return snapshotDocument observedAt targetIdentity verifier.expectedMigrations syntheticPrefix
        synthetic applicationRead

/-- `snapshot`, at a reading of the clock. -/
def snapshot (verifier : RestoreVerifier F) (db : Postgres F) (syntheticPrefix findingId : Text)
    (now : UtcDatetime) : Except GateError (Fields F) :=
  if !isIdentifier syntheticPrefix then
    .error (.raised (.valueError (lit "synthetic_prefix is invalid")))
  else if !isIdentifier findingId then .error (.raised (.valueError (lit "finding_id is invalid")))
  else if findingId.take syntheticPrefix.length ≠ syntheticPrefix then
    .error (.raised (.valueError (lit "finding_id is outside the synthetic prefix")))
  else snapshotInTransaction H compressed verifier db syntheticPrefix findingId (isoformatMillis now)

omit [PyFloat F] in
def SnapshotRequest.verifier (request : SnapshotRequest) (expectedMigrations : Fields F) :
    RestoreVerifier F :=
  ⟨request.expectedHostname, request.expectedTargetResourceId, request.evidenceHmacKey,
    expectedMigrations⟩

/-- `_postgres_snapshot`, once the arguments of the verifier are checked. -/
def postgresSnapshot (request : SnapshotRequest) (db : Postgres F) (now : UtcDatetime) :
    Except GateError (Fields F) := do
  let expectedMigrations ← raisedByGate (expectedMigrationChecksums H request.migrations)
  snapshot H compressed (request.verifier expectedMigrations) db request.syntheticPrefix
    request.findingId now

/-! ### Comparison -/

omit [PyFloat F] in
/-- `_require_pattern`. -/
def requirePattern (value : Json F) (pattern : Text → Bool) (name : Text) : Except GateError Unit :=
  match value with
  | .str t =>
    if pattern t then .ok () else .error (.raised (.valueError (name ++ lit " is invalid")))
  | _ => .error (.raised (.valueError (name ++ lit " is invalid")))

/-- `HEX_64`. -/
def isHex64 (t : Text) : Bool := t.length == 64 && t.all isLowerHex

omit [PyFloat F] in
/-- `set(value) == set(names)`. -/
def keysAre (fields : Fields F) (names : List Text) : Bool :=
  (fields.all fun f => f.1 ∈ names) && names.all fun name => name ∈ fields.map Prod.fst

omit [PyFloat F] in
/-- `_validate_snapshot_timestamp`, where `reads` says what `datetime.fromisoformat` reads. -/
def validateSnapshotTimestamp (reads : Text → Bool) (observedAt : Json F) (label : Text) :
    Except GateError Unit :=
  let invalid := .error (.raised (.valueError (label ++ lit " restore snapshot timestamp is invalid")))
  match observedAt with
  | .str t =>
    if t.getLast? = some (ofChar 'Z') ∧ reads (t.dropLast ++ lit "+00:00") = true then .ok ()
    else invalid
  | _ => invalid

omit [PyFloat F] in
/-- `_validate_snapshot_migrations`. -/
def validateSnapshotMigrations (migrations : Json F) (label : Text) : Except GateError Unit :=
  let invalid := .error (.raised (.valueError (label ++ lit " migration_checksums are invalid")))
  match migrations with
  | .obj [] => invalid
  | .obj entries => entries.forM fun entry => do
    requirePattern (.str entry.1 : Json F) isIdentifier (label ++ lit " migration_id")
    requirePattern entry.2 isHex64 (label ++ lit " migration checksum")
  | _ => invalid

omit [PyFloat F] in
/-- One turn of the loop of `_validate_snapshot_tables`. -/
def validateTableEvidence (label : Text) (entry : Text × Json F) : Except GateError Unit :=
  let name := label ++ lit " " ++ entry.1
  match entry.2 with
  | .obj evidence =>
    if !keysAre evidence [lit "count", lit "sha256"] then
      .error (.raised (.valueError (name ++ lit " evidence is invalid")))
    else match get evidence (lit "count") with
      | .int count =>
        if count < 0 then .error (.raised (.valueError (name ++ lit " count is invalid")))
        else requirePattern (get evidence (lit "sha256")) isHex64 (name ++ lit " sha256")
      | _ => .error (.raised (.valueError (name ++ lit " count is invalid")))
  | _ => .error (.raised (.valueError (name ++ lit " evidence is invalid")))

omit [PyFloat F] in
/-- `_validate_snapshot_tables`. -/
def validateSnapshotTables (tables : Json F) (label : Text) : Except GateError Unit :=
  let invalid := .error (.raised (.valueError (label ++ lit " synthetic_tables are invalid")))
  match tables with
  | .obj entries =>
    if !keysAre entries (syntheticTableKeys.map Prod.fst) then invalid
    else entries.forM (validateTableEvidence label)
  | _ => invalid

/-- The keys of a snapshot. -/
def snapshotKeys : List Text :=
  [lit "schema_version", lit "observed_at", lit "target_identity_hmac_sha256",
    lit "migration_checksums", lit "required_table_count", lit "synthetic_prefix",
    lit "synthetic_tables", lit "application_read_sha256"]

/-- `_validate_restore_snapshot`. -/
def validateRestoreSnapshot (reads : Text → Bool) (snapshot : Fields F) (label : Text) :
    Except GateError Unit :=
  if !keysAre snapshot snapshotKeys then
    .error (.raised (.valueError (label ++ lit " restore snapshot schema is invalid")))
  else if !(get snapshot (lit "schema_version")).pyEq
      (.str (lit "sentinel.live_gate.postgres_restore.v2")) then
    .error (.raised (.valueError (label ++ lit " restore snapshot version is invalid")))
  else do
    validateSnapshotTimestamp reads (get snapshot (lit "observed_at")) label
    requirePattern (get snapshot (lit "target_identity_hmac_sha256")) isHex64
      (label ++ lit " target_identity_hmac_sha256")
    requirePattern (get snapshot (lit "application_read_sha256")) isHex64
      (label ++ lit " application_read_sha256")
    requirePattern (get snapshot (lit "synthetic_prefix")) isIdentifier
      (label ++ lit " synthetic_prefix")
    if !(get snapshot (lit "required_table_count")).pyEq (.int requiredPostgresTables.length) then
      .error (.raised (.valueError (label ++ lit " required_table_count is invalid")))
    else do
      validateSnapshotMigrations (get snapshot (lit "migration_checksums")) label
      validateSnapshotTables (get snapshot (lit "synthetic_tables")) label

/-- The fields that a restored database must share with its source. -/
def comparedFields : List Text :=
  [lit "migration_checksums", lit "required_table_count", lit "synthetic_prefix",
    lit "synthetic_tables", lit "application_read_sha256"]

/-- What `verify_restore_snapshot` returns; `verified_at` is the clock's. -/
structure RestoreReport (F : Type) where
  sourceTargetIdentity : Json F
  restoredTargetIdentity : Json F
  syntheticPrefix : Json F
  verifiedAt : Text

/-- One turn of the loop over the compared fields. -/
def compareField (source restored : Fields F) (name : Text) : Except GateError Unit :=
  if !(get source name).pyEq (get restored name) then
    .error (.gate (lit "restored PostgreSQL " ++ name ++ lit " does not match"))
  else .ok ()

/-- `verify_restore_snapshot`. -/
def verifyRestoreSnapshot (reads : Text → Bool) (source restored : Fields F) (now : UtcDatetime) :
    Except GateError (RestoreReport F) := do
  validateRestoreSnapshot reads source (lit "source")
  validateRestoreSnapshot reads restored (lit "restored")
  if !(get restored (lit "schema_version")).pyEq (get source (lit "schema_version")) then
    gateError "restore snapshot versions do not match"
  else if (get source (lit "target_identity_hmac_sha256")).pyEq
      (get restored (lit "target_identity_hmac_sha256")) then
    gateError "restore target is not isolated from the source"
  else do
    comparedFields.forM (compareField source restored)
    return ⟨get source (lit "target_identity_hmac_sha256"),
      get restored (lit "target_identity_hmac_sha256"), get source (lit "synthetic_prefix"),
      isoformatMillis now⟩

/-- `_read_json_env`, of a variable that holds a text. -/
def readJsonEnv (name value : Text) : Except GateError (Fields F) :=
  if value = [] then .error (.raised (.valueError (name ++ lit " is required")))
  else match (loads value : Except PyError (Json F)) with
    | .error .jsonDecodeError =>
      .error (.raised (.valueError (name ++ lit " must be valid JSON")))
    | .error e => .error (.raised e)
    | .ok (.obj fields) => .ok fields
    | .ok _ => .error (.raised (.valueError (name ++ lit " must contain a JSON object")))

/-- `_postgres_compare`. -/
def postgresCompare (F : Type) [PyFloat F] (reads : Text → Bool) (source restored : Text)
    (now : UtcDatetime) : Except GateError (RestoreReport F) := do
  let source ← readJsonEnv (lit "SENTINEL_GATE_SOURCE_SNAPSHOT") source
  let restored ← readJsonEnv (lit "SENTINEL_GATE_RESTORED_SNAPSHOT") restored
  verifyRestoreSnapshot reads source restored now

/-! ### Hashed rows -/

omit [PyFloat F] in
theorem roundTrip_of_isCell {st : Style} {v : Json F} (h : isCell v = true) :
    v.all (roundTripNode st) = true := by
  cases v with
  | null | float => rfl
  | int n =>
    simp only [isCell, Bool.and_eq_true, decide_eq_true_eq] at h
    have hlength : (natText n.natAbs).length ≤ 19 := length_natText_le (by decide) (by omega)
    exact decide_eq_true (hlength.trans (by decide))
  | str t =>
    have hscalar : Scalar t := fun c hc => by simpa using List.all_eq_true.mp h c hc
    simp [all, roundTripNode, joined_of_scalar hscalar]
  | bool | arr | obj => cases h

omit [PyFloat F] in
theorem Row.roundTrip (row : Row F) (st : Style) :
    (Json.obj row.cells).all (roundTripNode st) = true := by
  simp only [all, roundTripNode, allFields_eq_all, Bool.and_eq_true, decide_eq_true_eq,
    List.all_eq_true, Bool.or_eq_true, allField_eq]
  refine ⟨⟨row.columns_nodup, .inr fun k hk => ?_⟩, fun c hc => ?_⟩
  · obtain ⟨c, hc, rfl⟩ := List.mem_map.mp hk
    exact joined_of_scalar (row.columns_scalar c hc)
  · exact roundTrip_of_isCell (row.cells_stored c hc)

omit [PyFloat F] in
/-- The row as a `dict`, whatever the order of its columns. -/
def Row.sorted (row : Row F) : Json F := (Json.obj row.cells).sortKeys

/-- The text of a row. -/
def Row.text (row : Row F) : Text := row.sorted.render compact

theorem Row.dumps_cells (row : Row F) : dumps compact (.obj row.cells) = .ok row.text :=
  if_pos (all_roundTripNode.mp (row.roundTrip compact)).1

theorem Row.loads_text (row : Row F) : loads row.text = .ok row.sorted :=
  loads_dumps (row.roundTrip compact) row.dumps_cells

omit [PyFloat F] in
theorem mapM_dumps_eq (rows : List (Row F)) [PyFloat F] :
    (rows.mapM fun row => dumps compact (.obj row.cells)) = .ok (rows.map Row.text) := by
  induction rows with
  | nil => rfl
  | cons row rows ih =>
    rw [List.mapM_cons, row.dumps_cells, ih]
    rfl

/-- The list of texts that is hashed. -/
def hashedList (F : Type) (rows : List Text) : Json F := .arr ((sortedTexts rows).map .str)

omit [PyFloat F] in
theorem sortItems_strs (texts : List Text) :
    sortItems (texts.map (Json.str (F := F))) = texts.map .str := by
  induction texts with
  | nil => rfl
  | cons t texts ih => rw [List.map_cons, sortItems, sortKeys, ih]

omit [PyFloat F] in
theorem allItems_strs {p : Json F → Bool} {texts : List Text} :
    allItems p (texts.map .str) = true ↔ ∀ t ∈ texts, p (.str t) = true := by
  induction texts with
  | nil => simp [allItems]
  | cons t texts ih => simp [allItems, all, ih]

omit [PyFloat F] in
theorem sortKeys_hashedList (texts : List Text) : (hashedList F texts).sortKeys = hashedList F texts := by
  rw [hashedList, sortKeys, sortItems_strs]

theorem scalar_of_plain {t : Text} (h : ∀ c ∈ t, Plain c) : Scalar t :=
  fun c hc => isSurrogate_of_plain (h c hc)

theorem Row.scalar_text (row : Row F) : Scalar row.text :=
  scalar_of_plain (plain_render rfl _)

theorem roundTrip_hashedList (rows : List (Row F)) :
    (hashedList F (rows.map Row.text)).all (roundTripNode compact) = true := by
  change (true && allItems _ ((sortedTexts (rows.map Row.text)).map .str)) = true
  rw [Bool.true_and, allItems_strs]
  intro t ht
  rw [sortedTexts, List.mem_insertionSort] at ht
  obtain ⟨row, -, rfl⟩ := List.mem_map.mp ht
  simp [roundTripNode, joined_of_scalar row.scalar_text]

/-- The bytes that are hashed are those of the sorted list. -/
theorem canonicalRowBytes_eq_ok {rows : List (Row F)} {bytes : Bytes} :
    canonicalRowBytes rows = .ok bytes ↔
      encodeUtf8 ((hashedList F (rows.map Row.text)).render compact) = .ok bytes := by
  have hdumps : dumps compact (hashedList F (rows.map Row.text)) =
      .ok ((hashedList F (rows.map Row.text)).render compact) := by
    rw [dumps, if_pos (all_roundTripNode.mp (roundTrip_hashedList rows)).1, sortKeys_hashedList]
  rw [canonicalRowBytes, mapM_dumps_eq]
  change (dumps compact (hashedList F (rows.map Row.text)) >>= encodeUtf8) = .ok bytes ↔ _
  rw [hdumps]
  rfl

/-- The bytes that are hashed. -/
def rowBytes (rows : List (Row F)) : Bytes := (canonicalRowBytes rows).toOption.getD []

theorem canonicalRowBytes_eq (rows : List (Row F)) : canonicalRowBytes rows = .ok (rowBytes rows) := by
  have hscalar : Scalar ((hashedList F (rows.map Row.text)).render compact) :=
    scalar_of_plain (plain_render rfl _)
  have hbytes := canonicalRowBytes_eq_ok.mpr (encodeUtf8_eq_ok.mpr ⟨hscalar, rfl⟩)
  rw [rowBytes, hbytes]
  rfl

theorem canonicalRows_eq (H : Digest) (rows : List (Row F)) :
    canonicalRows H rows = .ok (H.hexdigest (rowBytes rows)) := by
  rw [canonicalRows, canonicalRowBytes_eq]
  rfl

/-- The same rows, as often, in any order. -/
def SameRows (rows rows' : List (Row F)) : Prop := (rows.map Row.sorted).Perm (rows'.map Row.sorted)

instance total_keyLe : Std.Total fun s t => keyLe s t = true := ⟨keyLe_total⟩

instance isTrans_keyLe : IsTrans Text fun s t => keyLe s t = true := ⟨fun _ _ _ => keyLe_trans⟩

omit [PyFloat F] in
theorem sortedTexts_eq_iff {ts us : List Text} : sortedTexts ts = sortedTexts us ↔ ts.Perm us := by
  constructor
  · intro h
    have hts := List.perm_insertionSort (fun s t => keyLe s t = true) ts
    have hus := List.perm_insertionSort (fun s t => keyLe s t = true) us
    exact hts.symm.trans ((List.Perm.of_eq h).trans hus)
  · intro h
    refine List.Perm.eq_of_pairwise (fun s t _ _ => keyLe_antisymm) (List.pairwise_insertionSort _ _)
      (List.pairwise_insertionSort _ _) ?_
    exact (List.perm_insertionSort _ ts).trans (h.trans (List.perm_insertionSort _ us).symm)

/-- The bytes that are hashed determine the rows, and the rows the bytes. -/
theorem rowBytes_eq_iff {rows rows' : List (Row F)} :
    rowBytes rows = rowBytes rows' ↔ SameRows rows rows' := by
  have hbytes := canonicalRowBytes_eq_ok.mp (canonicalRowBytes_eq rows)
  have hbytes' := canonicalRowBytes_eq_ok.mp (canonicalRowBytes_eq rows')
  constructor
  · intro h
    have htext := decodeUtf8_encodeUtf8 hbytes
    rw [h, decodeUtf8_encodeUtf8 hbytes'] at htext
    have hread := loads_render (roundTrip_hashedList rows)
    rw [← Except.ok.inj htext, loads_render (roundTrip_hashedList rows'), hashedList, hashedList] at hread
    have hsorted : sortedTexts (rows'.map Row.text) = sortedTexts (rows.map Row.text) := by
      refine List.map_injective_iff.mpr ?_ (Json.arr.inj (Except.ok.inj hread))
      exact fun s t hst => Json.str.inj hst
    have hperm := (sortedTexts_eq_iff.mp hsorted.symm).map (loads (F := F))
    have hloads (rs : List (Row F)) :
        (rs.map Row.text).map loads = (rs.map Row.sorted).map (Except.ok (ε := PyError)) := by
      rw [List.map_map, List.map_map]
      exact List.map_congr_left fun row _ => row.loads_text
    rw [hloads, hloads] at hperm
    exact (List.map_perm_map_iff fun v w hvw => Except.ok.inj hvw).mp hperm
  · intro h
    have hperm : (rows.map Row.text).Perm (rows'.map Row.text) := by
      have hmap := h.map (Json.render compact)
      rwa [List.map_map, List.map_map] at hmap
    rw [hashedList, sortedTexts_eq_iff.mpr hperm, ← hashedList, hbytes'] at hbytes
    exact (Except.ok.inj hbytes).symm

end SentinelGRC.Delivery
