import SentinelGRC.Migrations.Runner

/-!
Interrupted migrations. A script runs outside any transaction that the runner controls, so
that every statement of it takes effect at once. When a migration fails, the rollback in
its handler undoes what is still open; what the script has committed by then stays. The
database is as it was before the migration exactly when the committed statements, taken
together, did nothing.
-/

namespace SentinelGRC.Migrations

open Python Store

variable {σ : Type} {H : Digest} {engine : Engine σ} {faults : ℕ → Option PyError}
  {now : Text → ℕ}

/-! ### The driver -/

section Driver

variable {D ε α : Type} {faults : ℕ → Option ε}

theorem whenOpen_closed {c : Connection D} (hc : c.transaction = none) (m : Session D ε Unit) :
    whenOpen m c = (.ok (), c) := by
  unfold whenOpen
  rw [hc]
  rfl

theorem durable_begin (c : Connection D) : (Session.begin faults c).2.durable = c.durable := by
  unfold Session.begin Session.faulty
  cases faults c.statements <;> rfl

theorem durable_rollback (c : Connection D) :
    (whenOpen (Session.rollback faults) c).2.durable = c.durable := by
  unfold whenOpen Session.rollback Session.faulty
  cases c.transaction with
  | none => rfl
  | some t =>
    simp only [Option.isSome_some, if_true]
    cases faults c.statements <;> rfl

theorem durable_commit {c : Connection D} {e : ε}
    (h : (whenOpen (Session.commit faults) c).1 = .error e) :
    (whenOpen (Session.commit faults) c).2.durable = c.durable := by
  unfold whenOpen Session.commit Session.faulty at h ⊢
  cases hc : c.transaction with
  | none => rfl
  | some t =>
    simp only [hc, Option.isSome_some, if_true] at h ⊢
    cases hfault : faults c.statements with
    | some e' => rfl
    | none =>
      rw [hfault] at h
      cases h

theorem transaction_commit {c c' : Connection D}
    (h : whenOpen (Session.commit faults) c = (.ok (), c')) : c'.transaction = none := by
  unfold whenOpen Session.commit Session.faulty at h
  cases hc : c.transaction with
  | none =>
    simp only [hc] at h
    cases h
    exact hc
  | some t =>
    simp only [hc, Option.isSome_some, if_true] at h
    cases hfault : faults c.statements with
    | some e' =>
      rw [hfault] at h
      cases h
    | none =>
      rw [hfault] at h
      cases h
      rfl

/-- Rows are changed in a transaction, so that nothing is durable yet. -/
theorem durable_modify (f : D → Except ε (Unit × D)) (c : Connection D) :
    (modify faults f c).2.durable = c.durable := by
  unfold modify
  cases hc : c.transaction with
  | some t =>
    obtain ⟨hd, -, -⟩ := Session.working_execute faults f c t hc
    exact hd
  | none =>
    simp only [Option.isSome_none, Bool.false_eq_true, if_false]
    rw [Session.bind_eq]
    have hbegin : (Session.begin faults c).2.durable = c.durable := durable_begin c
    rcases hout : Session.begin faults c with ⟨e | u, c₁⟩
    · rw [hout] at hbegin
      exact hbegin
    · rw [hout] at hbegin
      have hopen : c₁.transaction = some c.durable := by
        unfold Session.begin Session.faulty at hout
        simp only at hout
        cases hfault : faults c.statements with
        | some e =>
          rw [hfault] at hout
          cases hout
        | none =>
          rw [hfault] at hout
          cases hout
          rfl
      obtain ⟨hd, -, -⟩ := Session.working_execute faults f c₁ _ hopen
      exact hd.trans hbegin

end Driver

/-! ### One migration -/

/-- The statements of a script that run before it fails. -/
def ran (engine : Engine σ) (faults : ℕ → Option PyError) (sql : Text) (c : Connection (Database σ)) :
    List (Statement (Database σ) PyError) :=
  Script.completed .operationalError faults (engine sql) c

/-- What a failed migration leaves durable is the work of its committed statements. -/
theorem compose_migrate {migrationId sql checksum : Text} {c : Connection (Database σ)} {e : PyError}
    (hc : c.transaction = none)
    (h : (migrate engine faults now migrationId sql checksum c).1 = .error e) :
    Script.compose (Script.committed none (ran engine faults sql c)) c.durable =
      .ok (migrate engine faults now migrationId sql checksum c).2.durable := by
  have hcommitted : Script.compose (Script.committed none (Script.completed .operationalError faults
      (engine sql) c)) c.durable = _ := Script.compose_committed (engine sql) hc
  have hscript : executescript engine faults sql c =
      Script.execAll .operationalError faults (engine sql) c := by
    rw [executescript, Session.bind_eq, whenOpen_closed hc]
  rw [ran, hcommitted]
  unfold migrate at h ⊢
  rw [Session.bind_eq, hscript] at h ⊢
  generalize Script.execAll .operationalError faults (engine sql) c = out at h ⊢
  rcases out with ⟨e' | u, c₁⟩
  · rfl
  · change ((modify faults _ >>= fun _ => whenOpen (Session.commit faults)) c₁).1 = _ at h
    change _ = Except.ok ((modify faults _ >>= fun _ => whenOpen (Session.commit faults)) c₁).2.durable
    have hmodify : (modify faults (record ⟨migrationId, now migrationId, checksum⟩) c₁).2.durable =
        c₁.durable := durable_modify _ c₁
    rw [Session.bind_eq] at h ⊢
    generalize modify faults (record ⟨migrationId, now migrationId, checksum⟩) c₁ = out at h hmodify ⊢
    rcases out with ⟨e' | u', c₂⟩
    · exact congrArg Except.ok hmodify.symm
    · exact congrArg Except.ok ((durable_commit h).trans hmodify).symm

/-! ### A run that fails -/

/-- A run of the migrations that fails while it runs one of them. -/
structure Interruption (H : Digest) (engine : Engine σ) (faults : ℕ → Option PyError)
    (now : Text → ℕ) (files : List MigrationFile) (db : Database σ) where
  before : List MigrationFile
  file : MigrationFile
  after : List MigrationFile
  files_eq : files = before ++ file :: after
  /-- When the migration starts; those before it are applied and recorded. -/
  start : Connection (Database σ)
  applied : List Text
  reached : (connect faults >>= fun _ => applyFiles H engine faults now before)
    (Connection.fresh db) = (.ok applied, start)
  sql : Text
  read : (decodeUtf8 file.bytes).map universalNewlines = .ok sql
  encoded : Bytes
  encode : encodeUtf8 sql = .ok encoded
  /-- When its script starts; the migration is not recorded. -/
  running : Connection (Database σ)
  unrecorded : Session.query faults (recorded file.stem) start = (.ok none, running)
  error : PyError
  raised : (migrate engine faults now file.stem sql (H.hexdigest encoded) running).1 = .error error

/-- The database is as it was when the migration started, so that migrations run from it
the same way. -/
structure Interruption.Restored {files : List MigrationFile} {db : Database σ}
    (i : Interruption H engine faults now files db) : Prop where
  durable_eq : (apply H engine faults now files (Connection.fresh db)).2.durable = i.start.durable
  retry : ∀ (engine' : Engine σ) (faults' : ℕ → Option PyError) (files' : List MigrationFile),
    apply H engine' faults' now files'
      (Connection.fresh (apply H engine faults now files (Connection.fresh db)).2.durable) =
    apply H engine' faults' now files' (Connection.fresh i.start.durable)

theorem transaction_applyFile {file : MigrationFile} {c c' : Connection (Database σ)} {applied : Bool}
    (hc : c.transaction = none) (h : applyFile H engine faults now file c = (.ok applied, c')) :
    c'.transaction = none := by
  obtain ⟨sql, c₁, hsql, h⟩ := Session.bind_eq_ok.mp h
  obtain ⟨encoded, c₂, hencoded, h⟩ := Session.bind_eq_ok.mp h
  obtain ⟨row, c₃, hrow, h⟩ := Session.bind_eq_ok.mp h
  have hc₃ : c₃.transaction = none := by
    obtain ⟨-, -, ht⟩ := Session.reading_query faults (recorded file.stem) c₂
    rw [hrow] at ht
    obtain rfl : c = c₁ := congrArg Prod.snd hsql
    obtain rfl : c = c₂ := congrArg Prod.snd hencoded
    exact ht.trans hc
  cases row with
  | some checksum =>
    simp only at h
    split_ifs at h
    · cases h
    · cases h
      exact hc₃
  | none =>
    obtain ⟨u, c₄, hmigrate, h⟩ := Session.bind_eq_ok.mp h
    cases h
    unfold Session.handle at hmigrate
    split at hmigrate
    · rename_i hok
      obtain ⟨-, c₅, -, hok⟩ := Session.bind_eq_ok.mp hok
      obtain ⟨-, c₆, -, hok⟩ := Session.bind_eq_ok.mp hok
      cases hmigrate
      exact transaction_commit hok
    · obtain ⟨-, c₅, -, hraise⟩ := Session.bind_eq_ok.mp hmigrate
      cases hraise

theorem transaction_applyFiles {files : List MigrationFile} {c c' : Connection (Database σ)}
    {applied : List Text} (hc : c.transaction = none)
    (h : applyFiles H engine faults now files c = (.ok applied, c')) : c'.transaction = none := by
  induction files generalizing c applied with
  | nil =>
    cases h
    exact hc
  | cons file rest ih =>
    obtain ⟨b, c₁, hfile, h⟩ := Session.bind_eq_ok.mp h
    obtain ⟨later, c₂, hrest, h⟩ := Session.bind_eq_ok.mp h
    cases h
    exact ih (transaction_applyFile hc hfile) hrest

/-- A file that fails ends the run where it is. -/
theorem applyFiles_error {before after : List MigrationFile} {file : MigrationFile}
    {c c₁ c₂ : Connection (Database σ)} {applied : List Text} {e : PyError}
    (hbefore : applyFiles H engine faults now before c = (.ok applied, c₁))
    (hfile : applyFile H engine faults now file c₁ = (.error e, c₂)) :
    applyFiles H engine faults now (before ++ file :: after) c = (.error e, c₂) := by
  induction before generalizing c applied with
  | nil =>
    cases hbefore
    rw [List.nil_append, applyFiles, Session.bind_eq, hfile]
  | cons first rest ih =>
    obtain ⟨b, c₃, hfirst, h⟩ := Session.bind_eq_ok.mp hbefore
    obtain ⟨later, c₄, hrest, h⟩ := Session.bind_eq_ok.mp h
    cases h
    rw [List.cons_append, applyFiles, Session.bind_eq, hfirst]
    change (applyFiles H engine faults now (rest ++ file :: after) >>= _) c₃ = _
    rw [Session.bind_eq, ih hrest]

/-- The handler undoes no more than what is still open, and raises. -/
theorem handled {m : Session (Database σ) PyError Unit} {c : Connection (Database σ)} {e : PyError}
    (h : (m c).1 = .error e) : ∃ e' c', Session.handle m (fun e => do
        whenOpen (Session.rollback faults)
        Session.raise e) c = (.error e', c') ∧ c'.durable = (m c).2.durable := by
  unfold Session.handle
  rcases hm : m c with ⟨e' | u, c₁⟩
  · simp only
    have hrollback : (whenOpen (Session.rollback faults) c₁).2.durable = c₁.durable :=
      durable_rollback c₁
    rw [Session.bind_eq]
    rcases hout : whenOpen (Session.rollback faults) c₁ with ⟨e'' | u, c₂⟩
    · rw [hout] at hrollback
      exact ⟨e'', c₂, rfl, hrollback⟩
    · rw [hout] at hrollback
      exact ⟨e', c₂, rfl, hrollback⟩
  · rw [hm] at h
    cases h

namespace Interruption

variable {files : List MigrationFile} {db : Database σ}
  (i : Interruption H engine faults now files db)

theorem closed : i.start.transaction = none := by
  obtain ⟨u, c₁, hconnect, hbefore⟩ := Session.bind_eq_ok.mp i.reached
  obtain ⟨-, c₂, -, hcommit⟩ := Session.bind_eq_ok.mp hconnect
  exact transaction_applyFiles (transaction_commit hcommit) hbefore

theorem running_eq : i.running.transaction = none ∧ i.running.durable = i.start.durable := by
  obtain ⟨hd, -, ht⟩ := Session.reading_query faults (recorded i.file.stem) i.start
  rw [i.unrecorded] at hd ht
  exact ⟨ht.trans i.closed, hd⟩

/-- The run raises, and leaves what the failed migration left durable. -/
theorem apply_raises : ∃ e, (apply H engine faults now files (Connection.fresh db)).1 = .error e ∧
    (apply H engine faults now files (Connection.fresh db)).2.durable =
      (migrate engine faults now i.file.stem i.sql (H.hexdigest i.encoded) i.running).2.durable := by
  obtain ⟨u, c₁, hconnect, hbefore⟩ := Session.bind_eq_ok.mp i.reached
  obtain ⟨e, c', hhandled, hdurable⟩ := handled i.raised
  have hfile : applyFile H engine faults now i.file i.start = (.error e, c') := by
    rw [applyFile, Session.bind_eq, Session.lift, i.read]
    simp only
    rw [Session.bind_eq, Session.lift, i.encode]
    simp only
    rw [Session.bind_eq, i.unrecorded]
    simp only
    rw [Session.bind_eq, hhandled]
  have hrun : (connect faults >>= fun _ => applyFiles H engine faults now files)
      (Connection.fresh db) = (.error e, c') := by
    rw [Session.bind_eq, hconnect, i.files_eq]
    exact applyFiles_error hbefore hfile
  have happly : apply H engine faults now files (Connection.fresh db) =
      (.error e, { c' with transaction := none }) := by
    change Session.scope (connect faults >>= fun _ => applyFiles H engine faults now files)
      (Connection.fresh db) = _
    unfold Session.scope
    change (((connect faults >>= fun _ => applyFiles H engine faults now files)
      (Connection.fresh db)).1, _) = _
    rw [hrun]
    exact congrArg (fun c : Connection (Database σ) => (Except.error e, { c with transaction := none }))
      (congrArg Prod.snd hrun)
  rw [happly]
  exact ⟨e, rfl, hdurable⟩

/-- What is durable after the run is the work of the committed statements. -/
theorem compose_ran :
    Script.compose (Script.committed none (ran engine faults i.sql i.running)) i.start.durable =
      .ok (apply H engine faults now files (Connection.fresh db)).2.durable := by
  obtain ⟨e, -, hdurable⟩ := i.apply_raises
  obtain ⟨hclosed, hstart⟩ := i.running_eq
  rw [hdurable, ← hstart]
  exact compose_migrate hclosed i.raised

theorem restored_of_durable
    (h : (apply H engine faults now files (Connection.fresh db)).2.durable = i.start.durable) :
    i.Restored := ⟨h, fun engine' faults' files' => by rw [h]⟩

/-- After a failed migration the database is as it was before it if and only if the statements
that its script has committed by then do nothing together. -/
theorem restored_iff : i.Restored ↔
    Script.compose (Script.committed none (ran engine faults i.sql i.running)) i.start.durable =
      .ok i.start.durable := by
  rw [i.compose_ran]
  constructor
  · intro h
    rw [h.durable_eq]
  · intro h
    exact i.restored_of_durable (Except.ok.inj h)

/-- A script that opens a transaction and leaves its end to the runner is undone. -/
theorem restored_of_transaction {script : List (Statement (Database σ) PyError)}
    (hscript : engine i.sql = .begin :: script) (hplain : Script.Plain script) : i.Restored := by
  have hran := i.compose_ran
  have hnothing : Script.committed none (ran engine faults i.sql i.running) = [] := by
    rw [ran, hscript, Script.completed]
    split
    · rw [Script.committed]
      exact Script.committed_transaction fun s hs => hplain s (Script.mem_of_mem_completed hs)
    · rfl
  rw [hnothing] at hran
  exact i.restored_of_durable (Except.ok.inj hran).symm

end Interruption

/-! ### A table created twice -/

section Example

def createProbe (db : Database (List Text)) : Except PyError (Database (List Text)) :=
  if lit "probe" ∈ db.content then .error .operationalError
  else .ok { db with content := db.content ++ [lit "probe"] }

def probeSql : Text := lit "CREATE TABLE probe(a);CREATE TABLE probe(b);"

/-- An engine for one script, over the names of the tables. -/
def probeEngine : Engine (List Text) := fun sql =>
  if sql = probeSql then [.run createProbe, .run createProbe] else []

def probeBytes : Bytes := probeSql.flatMap fun c => String.utf8EncodeChar (toChar c)

theorem encodeUtf8_probeSql : encodeUtf8 probeSql = .ok probeBytes := if_pos (scalar_lit _)

def probeFiles : List MigrationFile := [⟨lit "001_probe", probeBytes⟩]

def newDatabase : Database (List Text) := ⟨none, []⟩

/-- The second statement fails. -/
def probeInterruption :
    Interruption sha256 probeEngine (fun _ => none) (fun _ => 0) probeFiles newDatabase where
  before := []
  file := ⟨lit "001_probe", probeBytes⟩
  after := []
  files_eq := rfl
  start := ⟨createTable newDatabase, none, 1, 0⟩
  applied := []
  reached := rfl
  sql := probeSql
  read := by
    have hlines : probeSql.all (fun c => c.val != 0xD) = true := by decide +kernel
    rw [decodeUtf8_encodeUtf8 encodeUtf8_probeSql]
    refine congrArg Except.ok (universalNewlines_eq_self probeSql fun c hc => ?_)
    simpa using List.all_eq_true.mp hlines c hc
  encoded := probeBytes
  encode := encodeUtf8_probeSql
  running := ⟨createTable newDatabase, none, 2, 0⟩
  unrecorded := rfl
  error := .operationalError
  raised := by
    rw [migrate, Session.bind_eq]
    rfl

/-- The first of the two stays. -/
theorem probe_kept : ¬ ∀ (files : List MigrationFile) (db : Database (List Text))
    (i : Interruption sha256 probeEngine (fun _ => none) (fun _ => 0) files db), i.Restored := by
  intro h
  have hran := probeInterruption.compose_ran
  rw [(h _ _ probeInterruption).durable_eq] at hran
  have hcontent := congrArg (fun out => out.toOption.map Database.content) hran
  revert hcontent
  decide +kernel

end Example

end SentinelGRC.Migrations
