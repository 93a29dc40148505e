import SentinelGRC.Contracts.Portfolio
import SentinelGRC.Contracts.SecurityAlert
import SentinelGRC.Delivery.Fencing
import SentinelGRC.Governance.Upsert

/-!
The staging import of an alert export. Each line is one alert; a line whose alert cannot
be read, normalized or stored counts as an error, as long as what it raises is caught.
-/

namespace SentinelGRC.Contracts

open Python Json Store Governance Delivery Transition

variable {F S : Type}

/-! ### The import -/

/-- What `run_logwatcher_staging` returns. -/
structure StagingResult where
  eventsRead : ℕ
  findingsCreated : ℕ
  findingsReassessed : ℕ
  ignored : ℕ
  errors : ℕ
  findingIds : List Text

/-- `_empty_result`. -/
def StagingResult.empty : StagingResult := ⟨0, 0, 0, 0, 0, []⟩

/-- How the body of the `try` statement ends: an event without a finding, or a stored finding. -/
inductive Import
  | ignored
  | stored (existed : Bool) (findingId : Text)

def StagingResult.count (r : StagingResult) : Import → StagingResult
  | .ignored => { r with ignored := r.ignored + 1 }
  | .stored true findingId =>
    { r with
      findingIds := r.findingIds ++ [findingId]
      findingsReassessed := r.findingsReassessed + 1 }
  | .stored false findingId =>
    { r with
      findingIds := r.findingIds ++ [findingId]
      findingsCreated := r.findingsCreated + 1 }

/-- `except (OSError, TypeError, ValueError)`. -/
def caught : PyError → Bool
  | .permissionError _ | .typeError _ | .valueError _ | .unicodeEncodeError | .unicodeDecodeError
  | .jsonDecodeError => true
  | _ => false

def connector : ActorContext :=
  ⟨lit "logwatcher-staging-connector", .analyst, lit "connector", by decide, by decide⟩

/-- `_finding_exists`. -/
def findingExists (db : Db F) (findingId : Text) : Except PyError Bool :=
  match getFinding db findingId with
  | .ok _ => .ok true
  | .error (.keyError _) => .ok false
  | .error e => .error e

variable [PyFloat F]

/-- `_normalize_finding` for the kind `contract`, which ignores nothing. -/
def normalizeFinding (H : Digest) (raw : Json F) : Except PyError (Option (AlertFinding F)) := do
  let finding ← normalizeSecurityAlertV1 H raw
  return some finding

/-- `upsert_finding` with the fields of a finding. -/
def upsertAlert (H : Digest) (db : Db F) (finding : AlertFinding F) (stamp later : Stamp F) :
    Db F × Except PyError (Finding F) :=
  upsertFinding H db connector finding.findingId finding.controlId finding.assetId finding.title
    finding.riskOwner finding.severity stamp later

/-- The body of the `try` statement. -/
def importLine (H : Digest) (db : Db F) (line : Text) (stamp later : Stamp F) :
    Db F × Except PyError Import :=
  match loads line >>= normalizeFinding H with
  | .error e => (db, .error e)
  | .ok none => (db, .ok .ignored)
  | .ok (some finding) =>
    match findingExists db finding.findingId with
    | .error e => (db, .error e)
    | .ok existed =>
      let (db', outcome) := upsertAlert H db finding stamp later
      (db', outcome.map fun _ => .stored existed finding.findingId)

/-- The clock readings and identities that the core draws while a line is imported. -/
structure Draw (F : Type) where
  stamp : Stamp F
  later : Stamp F

/-- One turn of the loop; what is not caught ends the run. -/
def processLine (H : Digest) (s : Db F × StagingResult) (line : Text) (draw : Draw F) :
    Except PyError (Db F × StagingResult) :=
  if blank line then .ok s
  else
    let result := { s.2 with eventsRead := s.2.eventsRead + 1 }
    match importLine H s.1 line draw.stamp draw.later with
    | (db, .ok imported) => .ok (db, result.count imported)
    | (db, .error e) =>
      if caught e then .ok (db, { result with errors := result.errors + 1 }) else .error e

/-- The loop, from line number `n`. -/
def processLines (H : Digest) (draws : ℕ → Draw F) :
    ℕ → Db F × StagingResult → List Text → Except PyError (Db F × StagingResult)
  | _, s, [] => .ok s
  | n, s, line :: rest => do
    let s ← processLine H s line (draws n)
    processLines H draws (n + 1) s rest

/-- `run_logwatcher_staging` on the bytes of the file, with the kind `contract`. -/
def runLogwatcherStaging (H : Digest) (db : Db F) (draws : ℕ → Draw F) (file : Bytes) :
    Except PyError (Db F × StagingResult) :=
  match decodeUtf8 file with
  | .error _ => .ok (db, { StagingResult.empty with errors := 1 })
  | .ok text => processLines H draws 0 (db, StagingResult.empty) (splitlines (universalNewlines text))

/-! ### Insertions -/

/-- The identities of a stamp are new, and the hash of the event is that of no stored one. -/
structure Fresh (H : Digest) (db : Db F) (k : Text) (type : EventType) (actor : ActorContext)
    (details : Fields F) (stamp : Stamp F) : Prop where
  eventId : ∀ e ∈ db.governanceEvents.rows, e.eventId ≠ stamp.eventId.hex
  outboxId : ∀ o ∈ db.governanceOutbox.rows, o.outboxId ≠ stamp.outboxId.hex
  exportId : ∀ x ∈ db.auditExports.rows, x.exportId ≠ stamp.exportId.hex
  hash : ∀ hash, chainHash H (chainedHash (db.eventsOf k)) (eventBody k type actor.actorId actor.role
    actor.authMethod stamp.now (.obj details) (chainedHash (db.eventsOf k))) = .ok hash →
    ∀ e ∈ db.governanceEvents.rows, e.eventHash ≠ hash

omit [PyFloat F] in
/-- A row of a queue stands for an event. -/
theorem event_of_mirrors {ρ : Type} {clash : ρ → ρ → Bool} [Deliverable ρ F clash]
    {q : Unique ρ clash} {events : List (Event F)} (h : Mirrors q events) {r : ρ} (hr : r ∈ q.rows) :
    ∃ e ∈ events, e.eventId = (key r).eventId ∧ e.findingId = (key r).findingId ∧
      e.eventSequence = (key r).eventSequence := by
  have hmem : (key r).place ∈ (q.rows.map key).map Key.place :=
    List.mem_map.mpr ⟨key r, List.mem_map.mpr ⟨r, hr, rfl⟩, rfl⟩
  rw [show (q.rows.map key).map Key.place = _ from h] at hmem
  obtain ⟨e, he, hplace⟩ := List.mem_map.mp hmem
  simp only [Key.place, eventPlace, Place.mk.injEq] at hplace
  exact ⟨e, he, hplace⟩

/-- What `json.dumps` says of an integer with too many digits. -/
def digitLimit : Text := lit "Exceeds the limit (4300 digits) for integer string conversion"

/-- What the code of an event can raise when the database takes its rows. -/
def EventError (e : PyError) : Prop := e = .unicodeEncodeError ∨ e = .valueError digitLimit

theorem raises_dumps (st : Style) (v : Json F) : Raises EventError (dumps st v) := by
  unfold dumps
  split_ifs
  · exact raises_ok _
  · exact raises_error.mpr (.inr rfl)

theorem raises_chainHash (H : Digest) (previousHash : Text) (body : Fields F) :
    Raises EventError (chainHash H previousHash body) := by
  refine (raises_dumps _ _).bind fun text _ => ?_
  exact ((raises_encodeUtf8 _).mono fun e => .inl).bind fun bytes _ => raises_ok _

omit [PyFloat F] in
theorem raises_bindTexts (texts : List Text) : Raises EventError (bindTexts texts) := by
  unfold bindTexts
  split_ifs
  · exact raises_ok _
  · exact raises_error.mpr (.inl rfl)

omit [PyFloat F] in
theorem raises_inserted {ρ : Type} {clash : ρ → ρ → Bool} {q : Unique ρ clash} {r : ρ}
    (h : ∀ s ∈ q.rows, clash s r = false) : Raises EventError (inserted (q.insert? r)) := by
  rw [Unique.insert?, dif_pos h]
  exact raises_ok _

/-- The database takes the rows of an event with fresh identities. -/
theorem raises_event {H : Digest} {db : Db F} {k : Text} {type : EventType} {actor : ActorContext}
    {details : Fields F} {stamp : Stamp F} (hmirrored : Mirrored db)
    (hfresh : Fresh H db k type actor details stamp) :
    Raises EventError (event H db k type actor details stamp.now stamp) := by
  -- No row of a queue stands for an event with this identity or at this place.
  have hplace {ρ : Type} {clash : ρ → ρ → Bool} [Deliverable ρ F clash] {q : Unique ρ clash}
      (hq : Mirrors q db.governanceEvents.rows) {r : ρ} (hr : r ∈ q.rows) :
      (key r).eventId ≠ stamp.eventId.hex ∧
        ¬ ((key r).findingId = k ∧ (key r).eventSequence = nextSequence (db.eventsOf k)) := by
    obtain ⟨e, he, hid, hfinding, hsequence⟩ := event_of_mirrors hq hr
    refine ⟨hid ▸ hfresh.eventId e he, ?_⟩
    rintro ⟨hk, hn⟩
    have hmem : e ∈ db.eventsOf k := List.mem_filter.mpr ⟨he, by simp [hfinding, hk]⟩
    have hlt := lt_nextSequence (List.mem_map.mpr ⟨e, hmem, rfl⟩)
    rw [hsequence, hn] at hlt
    exact absurd hlt (lt_irrefl _)
  refine (raises_chainHash _ _ _).bind fun eventHash hhash => ?_
  refine (raises_dumps _ _).bind fun detailsJson _ => ?_
  refine (raises_bindTexts _).bind fun _ _ => ?_
  refine (raises_inserted fun e he => ?_).bind fun governanceEvents _ => ?_
  · simp [Event.clash, hfresh.eventId e he, hfresh.hash eventHash hhash e he]
  refine (raises_dumps _ _).bind fun payloadJson _ => ?_
  refine (raises_inserted fun o ho => ?_).bind fun governanceOutbox _ => ?_
  · obtain ⟨hid, hseq⟩ := hplace hmirrored.outbox ho
    simpa [OutboxRow.clash, hfresh.outboxId o ho] using ⟨hid, not_and.mp hseq⟩
  refine (raises_inserted fun x hx => ?_).bind fun auditExports _ => raises_ok _
  obtain ⟨hid, hseq⟩ := hplace hmirrored.exports hx
  simpa [AuditExport.clash, hfresh.exportId x hx] using ⟨hid, not_and.mp hseq⟩

/-! ### Storing a finding -/

omit [PyFloat F] in
theorem EventError.caught {e : PyError} (h : EventError e) : caught e = true := by
  rcases h with rfl | rfl <;> rfl

/-- A creation fails on a text, or because the finding is there. -/
theorem raises_createFinding {H : Digest} {db : Db F} {actor : ActorContext} {args : FindingArgs}
    {stamp : Stamp F} (hmirrored : Mirrored db)
    (hfresh : Fresh H db args.findingId.text .findingCreated actor args.details stamp) :
    Raises (fun e => EventError e ∨
      caught e = true ∧ ∃ row, db.findings.find? args.findingId.text = some row)
      (createFinding H db actor args stamp) := by
  have hattempt : Raises (fun e => EventError e ∨
      e = .integrityError ∧ ∃ row, db.findings.find? args.findingId.text = some row) (do
      bindTexts [args.findingId.text, args.controlId.text, args.assetId.text, args.title.text,
        args.riskOwner.text]
      let findings ← inserted (db.findings.insert? (args.row stamp))
      event H { db with findings } args.findingId.text .findingCreated actor args.details stamp.now
        stamp) := by
    refine ((raises_bindTexts _).mono fun e => .inl).bind fun _ _ => ?_
    refine Raises.bind ?_ fun findings _ => ?_
    · cases hinsert : db.findings.insert? (args.row stamp) with
      | some findings => exact raises_ok _
      | none => exact raises_error.mpr (.inr ⟨rfl, Table.insert?_eq_none.mp hinsert⟩)
    · have hm : Mirrored { db with findings } := ⟨hmirrored.outbox, hmirrored.exports⟩
      have hf : Fresh H { db with findings } args.findingId.text .findingCreated actor args.details
          stamp := ⟨hfresh.eventId, hfresh.outboxId, hfresh.exportId, hfresh.hash⟩
      exact (raises_event hm hf).mono fun e => .inl
  intro e he
  unfold createFinding at he
  simp only at he
  split at he
  · rename_i hintegrity
    obtain rfl := Except.error.inj he
    rcases hattempt _ hintegrity with h | ⟨-, hrow⟩
    · rcases h with h | h <;> cases h
    · exact .inr ⟨rfl, hrow⟩
  · rename_i hother
    rcases hattempt e he with h | ⟨rfl, -⟩
    · exact .inl h
    · exact absurd he hother

/-- A reassessment of a stored finding fails on a text, or on its identity. -/
theorem raises_reassessFinding {H : Digest} {db : Db F} {actor : ActorContext} {args : FindingArgs}
    {stamp : Stamp F} (hmirrored : Mirrored db)
    (hfresh : Fresh H db args.findingId.text .findingReassessed actor args.details stamp)
    {row : Finding F} (hrow : db.findings.find? args.findingId.text = some row) :
    Raises (fun e => caught e = true) (reassessFinding H db actor args stamp) := by
  refine ((raises_bindTexts _).mono fun e => EventError.caught).bind fun _ _ => ?_
  rw [hrow]
  simp only
  split_ifs
  · exact raises_error.mpr rfl
  · refine ((raises_bindTexts _).mono fun e => EventError.caught).bind fun _ _ => ?_
    have hm : Mirrored { db with
        findings := db.findings.modify args.findingId.text (args.apply stamp.now)
          (args.findingId_apply stamp) } := ⟨hmirrored.outbox, hmirrored.exports⟩
    exact (raises_event hm ⟨hfresh.eventId, hfresh.outboxId, hfresh.exportId, hfresh.hash⟩).mono
      fun e => EventError.caught

omit [PyFloat F] in
theorem raises_concluded {P : PyError → Prop} {db : Db F} {k : Text} {outcome : Except PyError (Db F)}
    (h : Raises P outcome)
    (hfound : ∀ db', outcome = .ok db' → ∃ row, db'.findings.find? k = some row) :
    Raises P (concluded db k outcome).2 := by
  cases outcome with
  | error e => exact raises_error.mpr (h e rfl)
  | ok db' =>
    obtain ⟨row, hrow⟩ := hfound db' rfl
    rw [concluded]
    simp only [hrow]
    exact raises_ok row

omit [PyFloat F] in
theorem checkFinding_text {actor : ActorContext}
    {findingId controlId assetId title riskOwner severity : Text} {args : FindingArgs}
    (h : checkFinding actor findingId controlId assetId title riskOwner severity = .ok args) :
    args.findingId.text = strip findingId := by
  obtain ⟨u, -, h⟩ := bind_eq_ok.mp h
  obtain ⟨k, hk, h⟩ := bind_eq_ok.mp h
  obtain ⟨controlId', -, h⟩ := bind_eq_ok.mp h
  obtain ⟨assetId', -, h⟩ := bind_eq_ok.mp h
  obtain ⟨title', -, h⟩ := bind_eq_ok.mp h
  obtain ⟨riskOwner', -, h⟩ := bind_eq_ok.mp h
  obtain ⟨severity', -, h⟩ := bind_eq_ok.mp h
  obtain rfl := Except.ok.inj h
  unfold Governance.identifier Governance.requiredText at hk
  split_ifs at hk
  obtain rfl := Except.ok.inj hk
  rfl

/-- The identities that are drawn while a finding is stored are fresh. -/
def Undisturbed (H : Digest) (db : Db F) (finding : AlertFinding F) (draw : Draw F) : Prop :=
  ∀ args again, checkUpsert connector finding.findingId finding.controlId finding.assetId
      finding.title finding.riskOwner finding.severity = .ok (args, again) →
    Fresh H db again.findingId.text .findingCreated connector again.details draw.stamp ∧
      Fresh H db args.findingId.text .findingReassessed connector args.details draw.later

omit [PyFloat F] in
theorem raises_checkFinding (findingId controlId assetId title riskOwner severity : Text) :
    Raises (fun e => caught e = true)
      (checkFinding connector findingId controlId assetId title riskOwner severity) := by
  have htext (value field : Text) (limit : ℕ) :
      Raises (fun e => caught e = true) (Governance.requiredText value field limit) := by
    unfold Governance.requiredText
    split_ifs
    · exact raises_error.mpr rfl
    · exact raises_ok _
  refine Raises.bind ?_ fun _ _ => ?_
  · unfold require
    split_ifs
    · exact raises_ok _
    · exact raises_error.mpr rfl
  refine (htext _ _ _).bind fun findingId _ => ?_
  refine (htext _ _ _).bind fun controlId _ => ?_
  refine (htext _ _ _).bind fun assetId _ => ?_
  refine (htext _ _ _).bind fun title _ => ?_
  refine (htext _ _ _).bind fun riskOwner _ => ?_
  refine Raises.bind ?_ fun severity _ => raises_ok _
  unfold Governance.severity
  split
  · exact raises_ok _
  · exact raises_error.mpr rfl

/-- Storing a finding raises nothing that the loop does not catch. -/
theorem raises_upsertAlert {H : Digest} {db : Db F} {finding : AlertFinding F} {draw : Draw F}
    (hmirrored : Mirrored db) (hfresh : Undisturbed H db finding draw) :
    Raises (fun e => caught e = true) (upsertAlert H db finding draw.stamp draw.later).2 := by
  unfold upsertAlert upsertFinding
  cases hcheck : checkUpsert connector finding.findingId finding.controlId finding.assetId
      finding.title finding.riskOwner finding.severity with
  | error e =>
    refine raises_error.mpr ?_
    have hraises : Raises (fun e => caught e = true) (checkUpsert connector finding.findingId
        finding.controlId finding.assetId finding.title finding.riskOwner finding.severity) :=
      (raises_checkFinding _ _ _ _ _ _).bind fun _ _ =>
        (raises_checkFinding _ _ _ _ _ _).bind fun _ _ => raises_ok _
    exact hraises e hcheck
  | ok checked =>
    obtain ⟨args, again⟩ := checked
    obtain ⟨hcreated, hreassessed⟩ := hfresh args again hcheck
    have hsame : again.findingId.text = args.findingId.text := by
      obtain ⟨args', hargs, h⟩ := bind_eq_ok.mp hcheck
      obtain ⟨again', hagain, h⟩ := bind_eq_ok.mp h
      obtain ⟨rfl, rfl⟩ := Prod.mk.inj (Except.ok.inj h)
      rw [checkFinding_text hagain, checkFinding_text hargs, strip_strip]
    have hcreate := raises_createFinding hmirrored hcreated
    unfold upsertChecked
    dsimp only
    cases houtcome : createFinding H db connector again draw.stamp with
    | ok db' =>
      refine raises_concluded (raises_ok db') fun db'' hdb => ?_
      obtain rfl := Except.ok.inj hdb
      obtain ⟨-, hfind, -⟩ := createFinding_eq_ok houtcome
      exact ⟨_, (hfind _).trans (if_pos rfl)⟩
    | error e =>
      have he := hcreate e houtcome
      have hplain : Raises (fun e => caught e = true)
          (concluded db again.findingId.text (.error e)).2 := by
        refine raises_error.mpr ?_
        rcases he with he | ⟨he, -⟩
        · exact he.caught
        · exact he
      cases e with
      | valueError message =>
        by_cases hexists : lit "already exists" <:+: message
        · simp only [if_pos hexists]
          have hrow : ∃ row, db.findings.find? args.findingId.text = some row := by
            rcases he with (he | he) | ⟨-, row, hrow⟩
            · cases he
            · obtain rfl := PyError.valueError.inj he
              exact absurd hexists (by decide +kernel)
            · exact ⟨row, hsame ▸ hrow⟩
          obtain ⟨row, hrow⟩ := hrow
          refine raises_concluded (raises_reassessFinding hmirrored hreassessed hrow) ?_
          intro db' hdb
          obtain ⟨-, hfind, -⟩ := reassessFinding_eq_ok hdb
          exact ⟨_, (hfind _).trans (by rw [hrow]; rfl)⟩
        · simp only [if_neg hexists]
          exact hplain
      | _ => exact hplain

theorem mirrored_upsertAlert {H : Digest} {db : Db F} (finding : AlertFinding F)
    (stamp later : Stamp F) (hmirrored : Mirrored db) :
    Mirrored (upsertAlert H db finding stamp later).1 := by
  rw [upsertAlert, ← upsertFinding_run H (memoryEvidenceStore H) db Table.empty connector _ _ _ _ _ _
    stamp.eventId]
  refine Machine.run_invariant _ (I := fun s : Sys F MemoryObjects => Mirrored s.db) ?_ hmirrored _
  intro s a hs
  exact (hs.core H (memoryEvidenceStore H) a).1

/-! ### Lines -/

/-- The timestamp of the alert on a line falls in the years that `datetime` has. -/
def LineInRange (F : Type) [PyFloat F] (line : Text) : Prop :=
  ∀ alert : Json F, loads line = .ok alert → ∀ d, AlertDated alert d → d.InRange

theorem raises_readLine (H : Digest) (line : Text) :
    (LineInRange F line ∧ ValueErrorsOnly (loads (F := F) line >>= normalizeFinding H)) ∨
      ¬ LineInRange F line ∧ (loads (F := F) line >>= normalizeFinding H) = .error .overflowError := by
  by_cases hline : LineInRange F line
  · refine .inl ⟨hline, (valueErrorsOnly_loads line).bind fun alert halert => ?_⟩
    refine Raises.bind ?_ fun finding _ => raises_ok _
    exact (valueErrorsOnly_normalizeSecurityAlertV1 H alert).mpr (hline alert halert)
  · refine .inr ⟨hline, ?_⟩
    unfold LineInRange at hline
    push Not at hline
    obtain ⟨alert, halert, d, hd, hout⟩ := hline
    have hraises := mt (valueErrorsOnly_normalizeSecurityAlertV1 H alert).mp fun h => hout (h d hd)
    unfold ValueErrorsOnly Raises at hraises
    push Not at hraises
    obtain ⟨e, he, hvalue⟩ := hraises
    obtain rfl := (raises_normalizeSecurityAlertV1 H alert e he).resolve_left hvalue
    rw [halert]
    change (normalizeSecurityAlertV1 H alert >>= _) = _
    rw [he]
    rfl

omit [PyFloat F] in
theorem raises_findingExists (db : Db F) (findingId : Text) :
    Raises (fun e => caught e = true) (findingExists db findingId) := by
  unfold findingExists
  cases hfind : getFinding db findingId with
  | ok row => exact raises_ok _
  | error e =>
    have hraises : Raises (fun e => caught e = true ∨ ∃ message, e = .keyError message)
        (getFinding db findingId) := by
      refine ((raises_bindTexts _).mono fun e he => .inl he.caught).bind fun _ _ => ?_
      cases db.findings.find? findingId with
      | some row => exact raises_ok _
      | none => exact raises_error.mpr (.inr ⟨_, rfl⟩)
    rcases hraises e hfind with he | ⟨message, rfl⟩
    · cases e with
      | keyError message => cases he
      | _ => exact raises_error.mpr he
    · exact raises_ok _

/-- The finding that is read from a line is stored under fresh identities. -/
def LineUndisturbed (H : Digest) (db : Db F) (line : Text) (draw : Draw F) : Prop :=
  ∀ finding, (loads line >>= normalizeFinding H) = .ok (some finding) →
    Undisturbed H db finding draw

/-- What happens to a line: what it raises is caught, unless its alert is out of range. -/
theorem importLine_cases {H : Digest} {db : Db F} {line : Text} {draw : Draw F}
    (hmirrored : Mirrored db) (hfresh : LineUndisturbed H db line draw) :
    Mirrored (importLine H db line draw.stamp draw.later).1 ∧
      ((LineInRange F line ∧
        Raises (fun e => caught e = true) (importLine H db line draw.stamp draw.later).2) ∨
      ¬ LineInRange F line ∧
        (importLine H db line draw.stamp draw.later).2 = .error .overflowError) := by
  have hcaught (e : PyError) (he : e.IsValueError) : caught e = true := by
    cases e with
    | valueError message => rfl
    | unicodeEncodeError => rfl
    | unicodeDecodeError => rfl
    | jsonDecodeError => rfl
    | _ => cases he
  have hread := raises_readLine (F := F) H line
  unfold LineUndisturbed at hfresh
  unfold importLine
  cases houtcome : loads (F := F) line >>= normalizeFinding H with
  | error e =>
    rw [houtcome] at hread
    refine ⟨hmirrored, ?_⟩
    rcases hread with ⟨hline, hraises⟩ | ⟨hline, he⟩
    · exact .inl ⟨hline, raises_error.mpr (hcaught e (hraises e rfl))⟩
    · exact .inr ⟨hline, congrArg Except.error (Except.error.inj he)⟩
  | ok found =>
    rw [houtcome] at hread
    have hline : LineInRange F line := by
      rcases hread with ⟨hline, -⟩ | ⟨-, he⟩
      · exact hline
      · cases he
    cases found with
    | none => exact ⟨hmirrored, .inl ⟨hline, raises_ok _⟩⟩
    | some finding =>
      have hexists := raises_findingExists db finding.findingId
      cases hfound : findingExists db finding.findingId with
      | error e =>
        simp only [hfound]
        exact ⟨hmirrored, .inl ⟨hline, raises_error.mpr (hexists e hfound)⟩⟩
      | ok existed =>
        simp only [hfound]
        refine ⟨mirrored_upsertAlert finding _ _ hmirrored, .inl ⟨hline, ?_⟩⟩
        have hupsert := raises_upsertAlert hmirrored (hfresh finding houtcome)
        cases hout : (upsertAlert H db finding draw.stamp draw.later).2 with
        | error e => exact raises_error.mpr (hupsert e hout)
        | ok row => exact raises_ok _

/-! ### Runs -/

/-- Every line that was read has one outcome. -/
def StagingResult.Balanced (r : StagingResult) : Prop :=
  r.eventsRead = r.findingsCreated + r.findingsReassessed + r.ignored + r.errors

/-- What one turn keeps, and how much it reads. -/
theorem processLine_ok {H : Digest} {s s' : Db F × StagingResult} {line : Text} {draw : Draw F}
    (hmirrored : Mirrored s.1) (hfresh : LineUndisturbed H s.1 line draw)
    (h : processLine H s line draw = .ok s') :
    Mirrored s'.1 ∧ (s.2.Balanced → s'.2.Balanced) ∧
      s'.2.eventsRead = s.2.eventsRead + (if blank line then 0 else 1) := by
  have hkept := (importLine_cases hmirrored hfresh).1
  unfold processLine at h
  by_cases hblank : blank line = true
  · rw [if_pos hblank] at h ⊢
    obtain rfl := Except.ok.inj h
    exact ⟨hmirrored, id, rfl⟩
  · rw [if_neg hblank] at h ⊢
    rcases himport : importLine H s.1 line draw.stamp draw.later with ⟨db, e | imported⟩
    · rw [himport] at h hkept
      simp only at h
      split_ifs at h
      obtain rfl := Except.ok.inj h
      refine ⟨hkept, fun hbalanced => ?_, rfl⟩
      unfold StagingResult.Balanced at hbalanced ⊢
      simp only
      omega
    · rw [himport] at h hkept
      obtain rfl := Except.ok.inj h
      refine ⟨hkept, fun hbalanced => ?_, ?_⟩
      · unfold StagingResult.Balanced at hbalanced ⊢
        rcases imported with _ | ⟨_ | _, findingId⟩ <;> simp only [StagingResult.count] <;> omega
      · rcases imported with _ | ⟨_ | _, findingId⟩ <;> rfl

/-- A turn ends the run exactly on an alert that is out of range. -/
theorem processLine_iff {H : Digest} {s : Db F × StagingResult} {line : Text} {draw : Draw F}
    (hmirrored : Mirrored s.1) (hfresh : LineUndisturbed H s.1 line draw) :
    (∃ s', processLine H s line draw = .ok s') ↔ (blank line = false → LineInRange F line) := by
  unfold processLine
  by_cases hblank : blank line = true
  · rw [if_pos hblank]
    exact iff_of_true ⟨s, rfl⟩ fun h => by rw [h] at hblank; cases hblank
  · rw [if_neg hblank]
    have hcases := (importLine_cases hmirrored hfresh).2
    rcases himport : importLine H s.1 line draw.stamp draw.later with ⟨db, e | imported⟩
    · rw [himport] at hcases
      simp only
      rcases hcases with ⟨hline, hraises⟩ | ⟨hline, he⟩
      · rw [if_pos (hraises e rfl)]
        exact iff_of_true ⟨_, rfl⟩ fun _ => hline
      · obtain rfl := Except.error.inj he
        refine iff_of_false ?_ fun h => hline (h (Bool.not_eq_true _ ▸ hblank))
        rintro ⟨s', hs⟩
        cases hs
    · rw [himport] at hcases
      refine iff_of_true ⟨_, rfl⟩ fun _ => ?_
      rcases hcases with ⟨hline, -⟩ | ⟨-, he⟩
      · exact hline
      · cases he

/-- The identities that are drawn on the way through the lines are fresh. -/
def RunUndisturbed (H : Digest) (draws : ℕ → Draw F) (n : ℕ) (s : Db F × StagingResult)
    (lines : List Text) : Prop :=
  ∀ before line after s', lines = before ++ line :: after →
    processLines H draws n s before = .ok s' →
    LineUndisturbed H s'.1 line (draws (n + before.length))

theorem RunUndisturbed.tail {H : Digest} {draws : ℕ → Draw F} {n : ℕ}
    {s s' : Db F × StagingResult} {line : Text} {rest : List Text}
    (h : RunUndisturbed H draws n s (line :: rest))
    (hline : processLine H s line (draws n) = .ok s') : RunUndisturbed H draws (n + 1) s' rest := by
  intro before next after t hrest hbefore
  have hnext := h (line :: before) next after t (by rw [hrest, List.cons_append])
    (bind_eq_ok.mpr ⟨s', hline, hbefore⟩)
  rw [List.length_cons] at hnext
  rw [show n + 1 + before.length = n + (before.length + 1) by omega]
  exact hnext

theorem processLines_ok {H : Digest} {draws : ℕ → Draw F} {lines : List Text} :
    ∀ {n : ℕ} {s s' : Db F × StagingResult}, Mirrored s.1 → RunUndisturbed H draws n s lines →
      processLines H draws n s lines = .ok s' → (s.2.Balanced → s'.2.Balanced) ∧
        s'.2.eventsRead = s.2.eventsRead + lines.countP fun line => !blank line := by
  induction lines with
  | nil =>
    intro n s s' hmirrored hfresh h
    obtain rfl := Except.ok.inj h
    exact ⟨id, rfl⟩
  | cons line rest ih =>
    intro n s s' hmirrored hfresh h
    obtain ⟨t, hline, hrest⟩ := bind_eq_ok.mp h
    have hfirst : LineUndisturbed H s.1 line (draws n) := hfresh [] line rest s rfl rfl
    obtain ⟨ht, hbalanced, hread⟩ := processLine_ok hmirrored hfirst hline
    obtain ⟨hbalanced', hread'⟩ := ih ht (hfresh.tail hline) hrest
    refine ⟨fun hs => hbalanced' (hbalanced hs), ?_⟩
    rw [hread', hread, List.countP_cons]
    cases blank line <;> simp
    omega

/-- The loop comes to its end exactly when no alert on its lines is out of range. -/
theorem processLines_iff {H : Digest} {draws : ℕ → Draw F} {lines : List Text} :
    ∀ {n : ℕ} {s : Db F × StagingResult}, Mirrored s.1 → RunUndisturbed H draws n s lines →
      ((∃ s', processLines H draws n s lines = .ok s') ↔
        ∀ line ∈ lines, blank line = false → LineInRange F line) := by
  induction lines with
  | nil =>
    intro n s hmirrored hfresh
    exact iff_of_true ⟨s, rfl⟩ nofun
  | cons line rest ih =>
    intro n s hmirrored hfresh
    have hfirst : LineUndisturbed H s.1 line (draws n) := hfresh [] line rest s rfl rfl
    rw [List.forall_mem_cons, ← processLine_iff hmirrored hfirst]
    constructor
    · rintro ⟨s', h⟩
      obtain ⟨t, hline, hrest⟩ := bind_eq_ok.mp h
      have ht := (processLine_ok hmirrored hfirst hline).1
      exact ⟨⟨t, hline⟩, (ih ht (hfresh.tail hline)).mp ⟨s', hrest⟩⟩
    · rintro ⟨⟨t, hline⟩, hrest⟩
      have ht := (processLine_ok hmirrored hfirst hline).1
      obtain ⟨s', hs'⟩ := (ih ht (hfresh.tail hline)).mpr hrest
      exact ⟨s', bind_eq_ok.mpr ⟨t, hline, hs'⟩⟩

/-- The normalizers raise nothing but a `ValueError`, and the import reads every line of its file
and counts it once, exactly when no timestamp that is read falls outside the years of `datetime`. -/
theorem normalizers_valueErrors [Clock F] (H : Digest) (store : EvidenceStore S) (objects : S)
    (requests : List (Request F)) (draws : ℕ → Draw F) (file : Bytes) (text : Text)
    (hfile : decodeUtf8 file = .ok text)
    (hfresh : RunUndisturbed H draws 0
      (((queues H store).run (Sys.init objects) requests).db, StagingResult.empty)
      (splitlines (universalNewlines text))) :
    (∀ alert : Json F, ValueErrorsOnly (normalizeSecurityAlertV1 H alert) ↔
      ∀ d, AlertDated alert d → d.InRange) ∧
    (∀ payload : Json F, ValueErrorsOnly (normalizeAssetContextV1 H payload) ↔
      ∀ d, AssetDated payload d → d.InRange) ∧
    (∀ payload : Json F, ValueErrorsOnly (normalizeRemediationTicketV1 H payload) ↔
      ∀ d, TicketDated payload d → d.InRange) ∧
    ((∃ s, runLogwatcherStaging H ((queues H store).run (Sys.init objects) requests).db draws file =
        .ok s ∧ s.2.Balanced ∧
        s.2.eventsRead = (splitlines (universalNewlines text)).countP fun line => !blank line) ↔
      ∀ line ∈ splitlines (universalNewlines text), blank line = false → LineInRange F line) := by
  refine ⟨valueErrorsOnly_normalizeSecurityAlertV1 H, valueErrorsOnly_normalizeAssetContextV1 H,
    valueErrorsOnly_normalizeRemediationTicketV1 H, ?_⟩
  have hmirrored := mirrored_run H store objects requests
  rw [runLogwatcherStaging, hfile, ← processLines_iff hmirrored hfresh]
  constructor
  · rintro ⟨s, hs, -⟩
    exact ⟨s, hs⟩
  · rintro ⟨s, hs⟩
    obtain ⟨hbalanced, hread⟩ := processLines_ok hmirrored hfresh hs
    exact ⟨s, hs, hbalanced rfl, hread.trans (Nat.zero_add _)⟩

/-- A file with an object that is no alert, a blank line and a list. -/
theorem normalizers_valueErrors_refused :
    ∃ s, runLogwatcherStaging (F := Tick) sha256
        ((queues sha256 (memoryEvidenceStore sha256)).run (Sys.init Table.empty) []).db
        (fun _ => ⟨stampAt 0, stampAt 1⟩) [0x7B, 0x7D, 0xA, 0xA, 0x5B, 0x5D] = .ok s ∧
      s.2.Balanced ∧ s.2.eventsRead = 2 := by
  have hlines : splitlines (universalNewlines (lit "\x7b\x7d\n\n[]")) =
      [lit "\x7b\x7d", [], lit "[]"] := by decide
  have hrefused : ∀ line ∈ splitlines (universalNewlines (lit "\x7b\x7d\n\n[]")),
      (match loads (F := Tick) line >>= normalizeFinding sha256 with
        | .ok _ | .error .overflowError => false
        | .error _ => true) = true := by
    rw [hlines]
    decide +kernel
  have hrun := (normalizers_valueErrors (F := Tick) sha256 (memoryEvidenceStore sha256) Table.empty []
    (fun _ => ⟨stampAt 0, stampAt 1⟩) [0x7B, 0x7D, 0xA, 0xA, 0x5B, 0x5D] (lit "\x7b\x7d\n\n[]")
    (by decide +kernel) ?_).2.2.2.mpr ?_
  · obtain ⟨s, hs, hbalanced, hread⟩ := hrun
    exact ⟨s, hs, hbalanced, hread.trans (by rw [hlines]; decide)⟩
  · intro before line after s hsplit _ finding hfinding
    have hline := hrefused line (by rw [hsplit]; simp)
    rw [hfinding] at hline
    cases hline
  · intro line hmem _
    rcases raises_readLine (F := Tick) sha256 line with ⟨hline, -⟩ | ⟨-, hoverflow⟩
    · exact hline
    · have hline := hrefused line hmem
      rw [hoverflow] at hline
      cases hline

/-- A brute-force alert seen a minute before the first instant of `datetime`. -/
def earlyAlert : Json Tick :=
  .obj [(lit "schema_version", .str alertSchemaVersion), (lit "source", .str (lit "siem")),
    (lit "source_event_id", .str (lit "E-1")),
    (lit "observed_at", .str (lit "0001-01-01T00:00:00+00:01")),
    (lit "asset_id", .str (lit "A-1")), (lit "kind", .str (lit "brute_force")),
    (lit "severity", .str (lit "high")), (lit "title", .str (lit "Brute force")),
    (lit "risk_owner", .str (lit "owner-1")), (lit "event_code", .int 4625),
    (lit "evidence_refs", .arr [.str (lit "urn:e:1")])]

/-- Whether an outcome is an `OverflowError`. -/
def overflows {α : Type} : Except PyError α → Bool
  | .error .overflowError => true
  | _ => false

theorem earlyAlert_overflows :
    ¬ ∀ alert : Json Tick, ValueErrorsOnly (normalizeSecurityAlertV1 sha256 alert) := by
  intro h
  have hoverflow : overflows (normalizeSecurityAlertV1 sha256 earlyAlert) = true := by decide +kernel
  cases houtcome : normalizeSecurityAlertV1 sha256 earlyAlert with
  | ok finding =>
    rw [houtcome] at hoverflow
    cases hoverflow
  | error e =>
    have he := h earlyAlert e houtcome
    rw [houtcome] at hoverflow
    cases e with
    | overflowError => exact he
    | _ => cases hoverflow

end SentinelGRC.Contracts
