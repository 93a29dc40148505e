import SentinelGRC.Contracts.Accepted
import SentinelGRC.Delivery.RestoreSnapshot

/-!
What a restore comparison shows. The printed snapshots of two databases compare as restored
exactly when the databases run as different targets, recorded the same migrations and hold the
same synthetic rows, unless two lists of rows that differ have the same hash.
-/

namespace SentinelGRC.Delivery

open Python Json
open Contracts (isIdentifier exists_ok_of_isOk)

variable {F : Type}

/-! ### Loops -/

theorem forM_eq_ok {α ε : Type} {f : α → Except ε Unit} {xs : List α} :
    xs.forM f = .ok () ↔ ∀ x ∈ xs, f x = .ok () := by
  induction xs with
  | nil => simp [pure, Except.pure]
  | cons x xs ih =>
    rw [List.forall_mem_cons, ← ih]
    change (f x >>= fun _ => xs.forM f) = .ok () ↔ _
    rw [bind_eq_ok]
    constructor
    · rintro ⟨⟨⟩, hx, hxs⟩
      exact ⟨hx, hxs⟩
    · rintro ⟨hx, hxs⟩
      exact ⟨(), hx, hxs⟩

theorem requirePattern_eq_ok {value : Json F} {pattern : Text → Bool} {name : Text} {u : Unit} :
    requirePattern value pattern name = .ok u ↔ ∃ t, value = .str t ∧ pattern t = true := by
  cases value with
  | str t => simp [requirePattern]
  | null | bool | int | float | arr | obj => simp [requirePattern]

/-! ### Migrations -/

/-- The entries of the `dict` of expected migrations. -/
structure ChecksumEntries (H : Digest) (checksums : Fields F) : Prop where
  nodup : (checksums.map Prod.fst).Nodup
  hashed : ∀ c ∈ checksums, ∃ m, c.2 = .str (H.hexdigest m)

theorem ChecksumEntries.setField {H : Digest} {checksums : Fields F} (h : ChecksumEntries H checksums)
    (stem : Text) (m : Bytes) :
    ChecksumEntries H (setField stem (.str (H.hexdigest m)) checksums) where
  nodup := nodup_setField h.nodup
  hashed c hc := by
    have hfield := (field_eq_some (nodup_setField h.nodup)).mpr (show (c.1, c.2) ∈ _ from hc)
    rw [field_setField] at hfield
    split_ifs at hfield
    · exact ⟨m, (Option.some.inj hfield).symm⟩
    · exact h.hashed (c.1, c.2) (mem_of_field hfield)

theorem checksumEntries_foldlM {H : Digest} {files : List Migrations.MigrationFile} {acc checksums : Fields F}
    (hacc : ChecksumEntries H acc) (h : files.foldlM (addChecksum H) acc = .ok checksums) :
    ChecksumEntries H checksums ∧ (acc ≠ [] ∨ files ≠ [] → checksums ≠ []) := by
  induction files generalizing acc with
  | nil =>
    obtain rfl := Except.ok.inj h
    exact ⟨hacc, by simp⟩
  | cons file files ih =>
    rw [List.foldlM_cons, bind_eq_ok] at h
    obtain ⟨next, hnext, h⟩ := h
    obtain ⟨text, -, hnext⟩ := bind_eq_ok.mp hnext
    obtain ⟨encoded, -, hnext⟩ := bind_eq_ok.mp hnext
    obtain rfl := Except.ok.inj hnext
    obtain ⟨hentries, hne⟩ := ih (hacc.setField file.stem encoded) h
    refine ⟨hentries, fun _ => hne (.inl fun hnil => ?_)⟩
    have hfield := field_setField file.stem (.str (H.hexdigest encoded)) file.stem acc
    rw [hnil, if_pos rfl] at hfield
    cases hfield

theorem checksumEntries_expected {H : Digest} {files : List Migrations.MigrationFile} {checksums : Fields F}
    (h : expectedMigrationChecksums H files = .ok checksums) :
    ChecksumEntries H checksums ∧ checksums ≠ [] := by
  unfold expectedMigrationChecksums at h
  split_ifs at h with hempty
  obtain ⟨hentries, hne⟩ := checksumEntries_foldlM ⟨by simp, by simp⟩ h
  exact ⟨hentries, hne (.inr hempty)⟩

theorem sortField_str (f : Text × Text) :
    sortField (F := F) (f.1, .str f.2) = (f.1, .str f.2) := by
  rw [sortField, sortKeys]

theorem sortFields_actualMigrations (db : Postgres F) :
    sortFields db.actualMigrations = db.actualMigrations := by
  rw [sortFields_eq_map, Postgres.actualMigrations, List.map_map]
  exact List.map_congr_left fun m _ => sortField_str m

theorem keys_actualMigrations (db : Postgres F) :
    db.actualMigrations.map Prod.fst = db.schemaMigrations.map Prod.fst := by
  rw [Postgres.actualMigrations, List.map_map]
  rfl

theorem exact_actualMigrations (db : Postgres F) : Exact (.obj db.actualMigrations) := by
  rw [Exact, all, exactNode, keys_actualMigrations, decide_eq_true db.migrationIds_nodup, Bool.true_and,
    allFields_eq_all, List.all_eq_true]
  intro f hf
  obtain ⟨m, -, rfl⟩ := List.mem_map.mp hf
  rfl

theorem ChecksumEntries.exact {H : Digest} {checksums : Fields F} (h : ChecksumEntries H checksums) :
    Exact (.obj checksums) := by
  rw [Exact, all, exactNode, decide_eq_true h.nodup, Bool.true_and, allFields_eq_all, List.all_eq_true]
  intro f hf
  obtain ⟨m, hm⟩ := h.hashed f hf
  rw [allField_eq, hm]
  rfl

/-- Databases that recorded the same migrations. -/
theorem sortKeys_actualMigrations_iff {db db' : Postgres F} :
    (Json.obj db.actualMigrations).sortKeys = (Json.obj db'.actualMigrations).sortKeys ↔
      db.schemaMigrations.Perm db'.schemaMigrations := by
  have hinjective : Function.Injective fun m : Text × Text => ((m.1, .str m.2) : Text × Json F) := by
    intro m n hmn
    obtain ⟨h₁, h₂⟩ := Prod.mk.inj hmn
    exact Prod.ext h₁ (Json.str.inj h₂)
  constructor
  · intro h
    rw [sortKeys, sortKeys, sortFields_actualMigrations, sortFields_actualMigrations] at h
    have hsorted := Json.obj.inj h
    have hperm : db.actualMigrations.Perm db'.actualMigrations :=
      (List.perm_insertionSort fieldLe _).symm.trans
        ((List.Perm.of_eq hsorted).trans (List.perm_insertionSort fieldLe _))
    exact (List.map_perm_map_iff hinjective).mp hperm
  · intro h
    refine sortKeys_perm ((List.map_perm_map_iff hinjective).mpr h) ?_
    rw [keys_actualMigrations]
    exact db.migrationIds_nodup

/-! ### Tables -/

variable [PyFloat F] {H : Digest} {compressed : Text → Option Text}

/-- What a snapshot keeps of some rows. -/
def rowsEvidence (H : Digest) (rows : List (Row F)) : Json F :=
  .obj [(lit "count", .int rows.length), (lit "sha256", .str (H.hexdigest (rowBytes rows)))]

/-- What a snapshot keeps of all tables. -/
def syntheticEvidence (H : Digest) (db : Postgres F) (syntheticPrefix : Text) : Fields F :=
  syntheticTableKeys.map fun entry => (entry.1, rowsEvidence H (db.synthetic syntheticPrefix entry))

theorem tableEvidence_eq (db : Postgres F) (syntheticPrefix : Text) (entry : Text × Text) :
    tableEvidence H db syntheticPrefix entry =
      .ok (entry.1, rowsEvidence H (db.synthetic syntheticPrefix entry)) := by
  rw [tableEvidence]
  simp only [canonicalRows_eq]
  rfl

theorem mapM_tableEvidence (db : Postgres F) (syntheticPrefix : Text) :
    syntheticTableKeys.mapM (tableEvidence H db syntheticPrefix) =
      .ok (syntheticEvidence H db syntheticPrefix) := by
  rw [syntheticEvidence]
  generalize syntheticTableKeys = entries
  induction entries with
  | nil => rfl
  | cons entry entries ih =>
    rw [List.mapM_cons, tableEvidence_eq, ih]
    rfl

/-- The hashes of some rows collide. -/
def RowsCollide (H : Digest) (rows rows' : List (Row F)) : Prop :=
  rowBytes rows ≠ rowBytes rows' ∧ H.digest (rowBytes rows) = H.digest (rowBytes rows')

theorem SameRows.hexdigest {rows rows' : List (Row F)} (h : SameRows rows rows') :
    H.hexdigest (rowBytes rows) = H.hexdigest (rowBytes rows') := by
  rw [rowBytes_eq_iff.mpr h]

theorem sameRows_of_hexdigest {rows rows' : List (Row F)}
    (h : H.hexdigest (rowBytes rows) = H.hexdigest (rowBytes rows')) :
    SameRows rows rows' ∨ RowsCollide H rows rows' := by
  by_cases hbytes : rowBytes rows = rowBytes rows'
  · exact .inl (rowBytes_eq_iff.mp hbytes)
  · exact .inr ⟨hbytes, hexText_injective h⟩

theorem rowsEvidence_eq_iff {rows rows' : List (Row F)} : rowsEvidence H rows = rowsEvidence H rows' ↔
    rows.length = rows'.length ∧ H.hexdigest (rowBytes rows) = H.hexdigest (rowBytes rows') := by
  simp only [rowsEvidence, Json.obj.injEq, List.cons.injEq, Prod.mk.injEq, Json.int.injEq, Json.str.injEq,
    Int.natCast_inj, true_and, and_true]

theorem SameRows.rowsEvidence {rows rows' : List (Row F)} (h : SameRows rows rows') :
    rowsEvidence H rows = rowsEvidence H rows' := by
  have hlength := h.length_eq
  rw [List.length_map, List.length_map] at hlength
  exact rowsEvidence_eq_iff.mpr ⟨hlength, h.hexdigest⟩

omit [PyFloat F] in
theorem nodup_syntheticTableKeys : (syntheticTableKeys.map Prod.fst).Nodup := by decide

theorem keys_syntheticEvidence (db : Postgres F) (syntheticPrefix : Text) :
    (syntheticEvidence H db syntheticPrefix).map Prod.fst = syntheticTableKeys.map Prod.fst := by
  rw [syntheticEvidence, List.map_map]
  rfl

theorem nodup_syntheticEvidence (db : Postgres F) (syntheticPrefix : Text) :
    ((syntheticEvidence H db syntheticPrefix).map Prod.fst).Nodup := by
  rw [keys_syntheticEvidence]
  exact nodup_syntheticTableKeys

theorem exact_syntheticEvidence (db : Postgres F) (syntheticPrefix : Text) :
    Exact (.obj (syntheticEvidence H db syntheticPrefix)) := by
  rw [Exact, all, exactNode, decide_eq_true (nodup_syntheticEvidence db syntheticPrefix), Bool.true_and,
    allFields_eq_all, List.all_eq_true]
  intro f hf
  obtain ⟨entry, -, rfl⟩ := List.mem_map.mp hf
  rfl

/-- The evidence of all tables agrees where that of each table does. -/
theorem sortKeys_syntheticEvidence_iff {db db' : Postgres F} {syntheticPrefix syntheticPrefix' : Text} :
    (Json.obj (syntheticEvidence H db syntheticPrefix)).sortKeys =
        (Json.obj (syntheticEvidence H db' syntheticPrefix')).sortKeys ↔
      ∀ entry ∈ syntheticTableKeys, rowsEvidence H (db.synthetic syntheticPrefix entry) =
        rowsEvidence H (db'.synthetic syntheticPrefix' entry) := by
  have hsorted (rows : List (Row F)) : (rowsEvidence H rows).sortKeys = rowsEvidence H rows := by
    rfl
  rw [sortKeys_obj_eq_iff (nodup_syntheticEvidence _ _) (nodup_syntheticEvidence _ _)]
  constructor
  · rintro ⟨-, h⟩ entry hentry
    obtain ⟨w, hw, hsame⟩ := h _ (List.mem_map.mpr ⟨entry, hentry, rfl⟩)
    rw [field_eq_some (nodup_syntheticEvidence _ _)] at hw
    obtain ⟨other, hother, heq⟩ := List.mem_map.mp hw
    obtain ⟨hname, rfl⟩ := Prod.mk.inj heq
    obtain rfl := List.inj_on_of_nodup_map nodup_syntheticTableKeys hother hentry hname
    rwa [hsorted, hsorted] at hsame
  · intro h
    refine ⟨by simp [syntheticEvidence], fun f hf => ?_⟩
    obtain ⟨entry, hentry, rfl⟩ := List.mem_map.mp hf
    refine ⟨_, (field_eq_some (nodup_syntheticEvidence _ _)).mpr
      (List.mem_map.mpr ⟨entry, hentry, rfl⟩), ?_⟩
    rw [h entry hentry]

/-! ### Documents -/

/-- What a snapshot that succeeds has found. -/
structure Taken (H : Digest) (compressed : Text → Option Text) (request : SnapshotRequest)
    (db : Postgres F) (identity : Text) (migrations : Fields F) (finding : Row F) : Prop where
  identity : targetIdentityHmac H compressed (request.verifier ([] : Fields F)) db = .ok identity
  entries : ChecksumEntries H migrations
  nonempty : migrations ≠ []
  recorded : (Json.obj db.actualMigrations).sortKeys = (Json.obj migrations).sortKeys
  isPrefix : isIdentifier request.syntheticPrefix = true
  found : db.applicationRead request.findingId = some finding

/-- The document of a snapshot. -/
def takenDocument (H : Digest) (request : SnapshotRequest) (db : Postgres F) (now : UtcDatetime)
    (identity : Text) (migrations : Fields F) (finding : Row F) : Fields F :=
  snapshotDocument (isoformatMillis now) identity migrations request.syntheticPrefix
    (syntheticEvidence H db request.syntheticPrefix) (H.hexdigest (rowBytes [finding]))

theorem postgresSnapshot_eq_ok {request : SnapshotRequest} {db : Postgres F} {now : UtcDatetime}
    {document : Fields F} (h : postgresSnapshot H compressed request db now = .ok document) :
    ∃ identity migrations finding, Taken H compressed request db identity migrations finding ∧
      document = takenDocument H request db now identity migrations finding := by
  obtain ⟨migrations, hmigrations, h⟩ := bind_eq_ok.mp h
  obtain ⟨hentries, hnonempty⟩ := checksumEntries_expected (raisedByGate_eq_ok.mp hmigrations)
  unfold snapshot at h
  rw [ite_error_eq_ok, ite_error_eq_ok, ite_error_eq_ok] at h
  obtain ⟨hbegins, -, -, h⟩ := h
  obtain ⟨⟨⟩, -, h⟩ := bind_eq_ok.mp h
  obtain ⟨identity, hidentity, h⟩ := bind_eq_ok.mp h
  simp only [gateError] at h
  rw [ite_error_eq_ok, ite_error_eq_ok, mapM_tableEvidence] at h
  obtain ⟨hrecorded, -, h⟩ := h
  have hequal : (Json.obj db.actualMigrations).pyEq (.obj migrations) = true := by
    simpa [SnapshotRequest.verifier] using hrecorded
  cases hfound : db.applicationRead request.findingId with
  | none =>
    rw [hfound] at h
    cases h
  | some finding =>
    obtain ⟨synthetic, hsynthetic, h⟩ := bind_eq_ok.mp h
    obtain rfl := Except.ok.inj hsynthetic
    rw [hfound] at h
    simp only [canonicalRows_eq] at h
    obtain rfl := Except.ok.inj h
    exact ⟨identity, migrations, finding,
      { identity := hidentity
        entries := hentries
        nonempty := hnonempty
        recorded := (pyEq_iff_sortKeys (exact_actualMigrations db) hentries.exact).mp hequal
        isPrefix := by simpa using hbegins
        found := hfound }, rfl⟩

omit [PyFloat F] in
theorem whole_obj {fs : Fields F} :
    Whole (.obj fs) ↔ (∀ k ∈ fs.map Prod.fst, Joined k) ∧ ∀ f ∈ fs, Whole f.2 := by
  simp only [Whole, all, joinedNode, Bool.and_eq_true, List.all_eq_true, decide_eq_true_eq,
    allFields_eq_all, allField_eq]

omit [PyFloat F] in
theorem whole_str {t : Text} (h : Scalar t) : Whole (.str t : Json F) :=
  decide_eq_true (joined_of_scalar h)

theorem scalar_isoformatMillis (d : UtcDatetime) : Scalar (isoformatMillis d) := by
  have hall : (isoformatMillis d).all isStampChar = true := by
    simp only [isoformatMillis, List.all_append, all_padText, Bool.and_true, Bool.true_and]
    decide
  intro c hc
  have hstamp := List.all_eq_true.mp hall c hc
  simp only [isStampChar, Bool.and_eq_true, decide_eq_true_eq] at hstamp
  rw [isSurrogate_eq_false]
  omega

theorem scalar_of_isIdentifier {t : Text} (h : isIdentifier t = true) : Scalar t := by
  simp only [isIdentifier, Contracts.identifierOf, Bool.and_eq_true] at h
  intro c hc
  have hchar := List.all_eq_true.mp h.2 c hc
  simp only [Contracts.isAlnum, Contracts.isLowerAlnum, Contracts.isIdentifierMark, isDigit_iff,
    Bool.or_eq_true, Bool.and_eq_true, decide_eq_true_eq, beq_iff_eq] at hchar
  rw [isSurrogate_eq_false]
  rcases hchar with ((hdigit | hlower) | hupper) | ((rfl | rfl) | rfl) | rfl
  · omega
  · omega
  · omega
  all_goals decide

theorem scalar_hexdigest (H : Digest) (m : Bytes) : Scalar (H.hexdigest m) :=
  scalar_of_isLowerHex (H.isLowerHex_hexdigest m)

theorem isHex64_hexdigest (H : Digest) (m : Bytes) : isHex64 (H.hexdigest m) = true := by
  simp only [isHex64, Bool.and_eq_true, beq_iff_eq, List.all_eq_true]
  exact ⟨H.hexdigest_length m, H.isLowerHex_hexdigest m⟩

theorem hmacSha256_eq_ok {key : Bytes} {value : Json F} {t : Text} (h : hmacSha256 H key value = .ok t) :
    ∃ m, t = hmacHex H key m := by
  obtain ⟨text, -, h⟩ := bind_eq_ok.mp h
  obtain ⟨canonical, -, h⟩ := bind_eq_ok.mp h
  exact ⟨canonical, (Except.ok.inj h).symm⟩

theorem targetIdentityHmac_eq_ok {verifier : RestoreVerifier F} {db : Postgres F} {identity : Text}
    (h : targetIdentityHmac H compressed verifier db = .ok identity) :
    ∃ m, identity = hmacHex H verifier.evidenceHmacKey m := by
  obtain ⟨target, -, h⟩ := bind_eq_ok.mp h
  exact hmacSha256_eq_ok (raisedByGate_eq_ok.mp h)

/-! ### What was taken -/

section
variable {request : SnapshotRequest} {db : Postgres F} {now : UtcDatetime} {identity : Text}
  {migrations : Fields F} {finding : Row F}

theorem Taken.isHex64_identity (h : Taken H compressed request db identity migrations finding) :
    isHex64 identity = true := by
  obtain ⟨m, rfl⟩ := targetIdentityHmac_eq_ok h.identity
  exact isHex64_hexdigest H _

theorem Taken.perm_keys (h : Taken H compressed request db identity migrations finding) :
    (migrations.map Prod.fst).Perm (db.schemaMigrations.map Prod.fst) := by
  have hkeys := (keys_sortKeys migrations).symm
  have hsorted := h.recorded
  rw [sortKeys, sortKeys] at hsorted
  rw [← Json.obj.inj hsorted] at hkeys
  exact keys_actualMigrations db ▸ hkeys.trans (keys_sortKeys db.actualMigrations)

theorem Taken.whole_migrations (h : Taken H compressed request db identity migrations finding) :
    Whole (.obj migrations) := by
  refine whole_obj.mpr ⟨fun k hk => ?_, fun f hf => ?_⟩
  · obtain ⟨m, hm, rfl⟩ := List.mem_map.mp (h.perm_keys.mem_iff.mp hk)
    exact joined_of_scalar (db.schemaMigrations_scalar m hm).1
  · obtain ⟨m, hm⟩ := h.entries.hashed f hf
    rw [hm]
    exact whole_str (scalar_hexdigest H m)

theorem whole_syntheticEvidence (db : Postgres F) (syntheticPrefix : Text) :
    Whole (.obj (syntheticEvidence H db syntheticPrefix)) := by
  refine whole_obj.mpr ⟨fun k hk => ?_, fun f hf => ?_⟩
  · rw [keys_syntheticEvidence] at hk
    have hjoined : ∀ k ∈ syntheticTableKeys.map Prod.fst, Joined k := by decide
    exact hjoined k hk
  · obtain ⟨entry, -, rfl⟩ := List.mem_map.mp hf
    refine whole_obj.mpr ⟨?_, ?_⟩
    · simp only [List.map_cons, List.map_nil, List.forall_mem_cons, List.not_mem_nil, false_implies,
        implies_true, and_true]
      decide
    · refine List.forall_mem_cons.mpr ⟨rfl, List.forall_mem_singleton.mpr ?_⟩
      exact whole_str (scalar_hexdigest H _)

theorem nodup_snapshotKeys : snapshotKeys.Nodup := by decide

theorem nodup_takenDocument :
    ((takenDocument H request db now identity migrations finding).map Prod.fst).Nodup :=
  nodup_snapshotKeys

/-- The text of a snapshot is read as its document, up to the order of keys. -/
theorem Taken.loads_printed (h : Taken H compressed request db identity migrations finding) {text : Text}
    (hprinted : dumps Governance.spacedStyle
      (.obj (takenDocument H request db now identity migrations finding)) = .ok text) :
    loads text = .ok (.obj (sortDict (takenDocument H request db now identity migrations finding))) := by
  rw [← sortKeys_obj]
  refine loads_dumps (all_roundTripNode.mpr ⟨?_, ?_, fun _ => ?_⟩) hprinted
  · rw [dumps] at hprinted
    split_ifs at hprinted with hprintable
    exact hprintable
  · refine distinct_obj.mpr ⟨nodup_takenDocument, ?_⟩
    simp only [takenDocument, snapshotDocument, List.forall_mem_cons, List.not_mem_nil, false_implies,
      implies_true, and_true]
    exact ⟨rfl, rfl, rfl, h.entries.exact.distinct, rfl, rfl, (exact_syntheticEvidence db _).distinct, rfl⟩
  · have hkeys : ∀ k ∈ snapshotKeys, Joined k := by decide
    refine whole_obj.mpr ⟨hkeys, ?_⟩
    simp only [takenDocument, snapshotDocument, List.forall_mem_cons, List.not_mem_nil, false_implies,
      implies_true, and_true]
    refine ⟨whole_str (scalar_lit _), whole_str (scalar_isoformatMillis now), whole_str ?_,
      h.whole_migrations, rfl, whole_str (scalar_of_isIdentifier h.isPrefix),
      whole_syntheticEvidence db _, whole_str (scalar_hexdigest H _)⟩
    obtain ⟨m, rfl⟩ := targetIdentityHmac_eq_ok h.identity
    exact scalar_of_isLowerHex (isLowerHex_hmacHex H _ m)

/-! ### Validation -/

omit [PyFloat F] in
theorem keysAre_iff {fs : Fields F} {names : List Text} :
    keysAre fs names = true ↔ ∀ k, k ∈ fs.map Prod.fst ↔ k ∈ names := by
  simp only [keysAre, Bool.and_eq_true, List.all_eq_true, decide_eq_true_eq]
  constructor
  · rintro ⟨hfs, hnames⟩ k
    refine ⟨fun hk => ?_, hnames k⟩
    obtain ⟨f, hf, rfl⟩ := List.mem_map.mp hk
    exact hfs f hf
  · intro h
    exact ⟨fun f hf => (h f.1).mp (List.mem_map.mpr ⟨f, hf, rfl⟩), fun k hk => (h k).mpr hk⟩

omit [PyFloat F] in
theorem keysAre_sortDict {fs : Fields F} {names : List Text} (h : fs.map Prod.fst = names) :
    keysAre (sortDict fs) names = true := by
  rw [keysAre_iff]
  intro k
  rw [sortDict, (keys_sortKeys fs).mem_iff, h]

omit [PyFloat F] in
theorem sortDict_perm_of_sorted {fs : Fields F} (h : ∀ f ∈ fs, f.2.sortKeys = f.2) : (sortDict fs).Perm fs := by
  have hsame : sortFields fs = fs := by
    rw [sortFields_eq_map]
    refine (List.map_congr_left fun f hf => ?_).trans (List.map_id fs)
    obtain ⟨k, v⟩ := f
    rw [sortField, h _ hf]
    rfl
  rw [sortDict, hsame]
  exact List.perm_insertionSort fieldLe fs

theorem Taken.perm_migrations (h : Taken H compressed request db identity migrations finding) :
    (sortDict migrations).Perm db.actualMigrations := by
  have hsorted := h.recorded
  rw [sortKeys_obj, sortKeys_obj] at hsorted
  rw [← Json.obj.inj hsorted, sortDict, sortFields_actualMigrations]
  exact List.perm_insertionSort fieldLe _

theorem validateTableEvidence_rowsEvidence (label name : Text) (rows : List (Row F)) :
    validateTableEvidence label (name, rowsEvidence H rows) = .ok () := by
  let evidence : Fields F :=
    [(lit "count", .int rows.length), (lit "sha256", .str (H.hexdigest (rowBytes rows)))]
  have hkeys : keysAre evidence [lit "count", lit "sha256"] = true := by
    rw [keysAre_iff]
    intro k
    rfl
  have hcount : get evidence (lit "count") = .int rows.length := rfl
  have hsha256 : get evidence (lit "sha256") = .str (H.hexdigest (rowBytes rows)) := rfl
  rw [validateTableEvidence, rowsEvidence]
  simp only [evidence] at hkeys hcount hsha256
  simp only [hkeys, hcount, hsha256, Bool.not_true, Bool.false_eq_true, if_false]
  rw [if_neg (by simp), requirePattern, if_pos (isHex64_hexdigest H _)]

omit [PyFloat F] in
theorem validateSnapshotMigrations_eq_ok {entries : Fields F} {label : Text} :
    validateSnapshotMigrations (.obj entries) label = .ok () ↔
      entries ≠ [] ∧ ∀ e ∈ entries, isIdentifier e.1 = true ∧ ∃ t, e.2 = .str t ∧ isHex64 t = true := by
  cases entries with
  | nil => simp [validateSnapshotMigrations]
  | cons e es =>
    rw [validateSnapshotMigrations, forM_eq_ok]
    · simp only [bind_eq_ok, requirePattern_eq_ok]
      simp
    · simp

/-- What is read under the keys of a snapshot. -/
structure ReadBack (fields : Fields F) (observedAt identity : Text) (migrations : Fields F)
    (syntheticPrefix : Text) (synthetic : Fields F) (applicationRead : Text) : Prop where
  schemaVersion : get fields (lit "schema_version") = .str (lit "sentinel.live_gate.postgres_restore.v2")
  observedAt : get fields (lit "observed_at") = .str observedAt
  identity : get fields (lit "target_identity_hmac_sha256") = .str identity
  migrations : get fields (lit "migration_checksums") = .obj (sortDict migrations)
  tableCount : get fields (lit "required_table_count") = .int requiredPostgresTables.length
  syntheticPrefix : get fields (lit "synthetic_prefix") = .str syntheticPrefix
  synthetic : get fields (lit "synthetic_tables") = .obj (sortDict synthetic)
  applicationRead : get fields (lit "application_read_sha256") = .str applicationRead

theorem readBack_takenDocument :
    ReadBack (sortDict (takenDocument H request db now identity migrations finding))
      (isoformatMillis now) identity migrations request.syntheticPrefix
      (syntheticEvidence H db request.syntheticPrefix) (H.hexdigest (rowBytes [finding])) := by
  have hget (k : Text) : get (sortDict (takenDocument H request db now identity migrations finding)) k =
      (get (takenDocument H request db now identity migrations finding) k).sortKeys :=
    get_sortDict nodup_takenDocument k
  exact ⟨(hget _).trans rfl, (hget _).trans rfl, (hget _).trans rfl, (hget _).trans rfl,
    (hget _).trans rfl, (hget _).trans rfl, (hget _).trans rfl, (hget _).trans rfl⟩

/-- A snapshot that was taken is valid when its migrations have the names of identifiers. -/
theorem Taken.validate_iff (h : Taken H compressed request db identity migrations finding)
    {reads : Text → Bool} (hreads : reads ((isoformatMillis now).dropLast ++ lit "+00:00") = true)
    (label : Text) :
    validateRestoreSnapshot reads (sortDict (takenDocument H request db now identity migrations finding))
        label = .ok () ↔ ∀ m ∈ db.schemaMigrations, isIdentifier m.1 = true := by
  have hstamp : validateSnapshotTimestamp reads (.str (isoformatMillis now) : Json F) label = .ok () := by
    have hlast : (isoformatMillis now).getLast? = some (ofChar 'Z') := by
      rw [isoformatMillis]
      exact List.getLast?_concat
    rw [validateSnapshotTimestamp, if_pos ⟨hlast, hreads⟩]
  have htables : validateSnapshotTables (.obj (sortDict (syntheticEvidence H db request.syntheticPrefix)))
      label = .ok () := by
    have hperm : (sortDict (syntheticEvidence H db request.syntheticPrefix)).Perm
        (syntheticEvidence H db request.syntheticPrefix) := by
      refine sortDict_perm_of_sorted fun f hf => ?_
      obtain ⟨entry, -, rfl⟩ := List.mem_map.mp hf
      rfl
    rw [validateSnapshotTables, keysAre_sortDict (keys_syntheticEvidence db _)]
    refine forM_eq_ok.mpr fun f hf => ?_
    obtain ⟨entry, -, rfl⟩ := List.mem_map.mp (hperm.mem_iff.mp hf)
    exact validateTableEvidence_rowsEvidence label entry.1 _
  have hmigrations : validateSnapshotMigrations (.obj (sortDict migrations)) label = .ok () ↔
      ∀ m ∈ db.schemaMigrations, isIdentifier m.1 = true := by
    have hperm := h.perm_migrations
    have hsorted : (sortDict migrations).Perm migrations := by
      refine sortDict_perm_of_sorted fun f hf => ?_
      obtain ⟨m, hm⟩ := h.entries.hashed f hf
      rw [hm, sortKeys]
    rw [validateSnapshotMigrations_eq_ok]
    constructor
    · rintro ⟨-, hentries⟩ m hm
      exact (hentries _ (hperm.mem_iff.mpr (List.mem_map.mpr ⟨m, hm, rfl⟩))).1
    · intro hnamed
      refine ⟨fun hnil => ?_, fun e he => ?_⟩
      · have hkeys := keys_sortKeys migrations
        rw [← sortDict, hnil] at hkeys
        exact h.nonempty (List.map_eq_nil_iff.mp hkeys.symm.eq_nil)
      · obtain ⟨m, hm, rfl⟩ := List.mem_map.mp (hperm.mem_iff.mp he)
        obtain ⟨bytes, hbytes⟩ := h.entries.hashed _ (hsorted.mem_iff.mp he)
        exact ⟨hnamed m hm, _, hbytes, isHex64_hexdigest H bytes⟩
  have hread : ReadBack (sortDict (takenDocument H request db now identity migrations finding))
      _ _ _ _ _ _ := readBack_takenDocument
  have hkeys : keysAre (sortDict (takenDocument H request db now identity migrations finding))
      snapshotKeys = true := keysAre_sortDict rfl
  unfold validateRestoreSnapshot
  rw [hkeys]
  simp only [hread.schemaVersion, hread.observedAt, hread.identity, hread.migrations, hread.tableCount,
    hread.syntheticPrefix, hread.synthetic, hread.applicationRead, ite_error_eq_ok, bind_eq_ok, hstamp,
    htables, requirePattern_eq_ok]
  constructor
  · rintro ⟨-, -, -, -, -, -, -, -, -, -, -, ⟨⟩, hvalid, -⟩
    exact hmigrations.mp hvalid
  · intro hnamed
    have hversion : (Json.str (lit "sentinel.live_gate.postgres_restore.v2") : Json F).pyEq
        (.str (lit "sentinel.live_gate.postgres_restore.v2")) = true := pyEq_str.mpr rfl
    have hcount : (Json.int requiredPostgresTables.length : Json F).pyEq
        (.int requiredPostgresTables.length) = true := by simp [pyEq, leafEq, number?, numEq]
    exact ⟨by simp, by simp [hversion], (), trivial, (), ⟨_, rfl, h.isHex64_identity⟩, (),
      ⟨_, rfl, isHex64_hexdigest H _⟩, (), ⟨_, rfl, h.isPrefix⟩, by simp [hcount], (),
      hmigrations.mpr hnamed, trivial⟩

end

/-! ### Comparison -/

/-- When a database is a restored copy, as far as a snapshot looks: another target with the same
migrations, of good names, and the same rows under the same prefix. -/
structure Restores (compressed : Text → Option Text) (H : Digest) (source restored : SnapshotRequest)
    (db db' : Postgres F) : Prop where
  isolated : targetIdentityHmac H compressed (source.verifier ([] : Fields F)) db ≠
    targetIdentityHmac H compressed (restored.verifier []) db'
  migrations : db.schemaMigrations.Perm db'.schemaMigrations
  named : ∀ m ∈ db.schemaMigrations, isIdentifier m.1 = true
  syntheticPrefix : source.syntheticPrefix = restored.syntheticPrefix
  tables : ∀ entry ∈ syntheticTableKeys,
    SameRows (db.synthetic source.syntheticPrefix entry) (db'.synthetic restored.syntheticPrefix entry)
  applicationRead :
    SameRows (db.applicationRead source.findingId).toList (db'.applicationRead restored.findingId).toList

/-- Two of the compared hashes stand for rows that differ. -/
def SnapshotsCollide (H : Digest) (source restored : SnapshotRequest) (db db' : Postgres F) : Prop :=
  (∃ entry ∈ syntheticTableKeys, RowsCollide H (db.synthetic source.syntheticPrefix entry)
    (db'.synthetic restored.syntheticPrefix entry)) ∨
  RowsCollide H (db.applicationRead source.findingId).toList
    (db'.applicationRead restored.findingId).toList

omit [PyFloat F] in
theorem readJsonEnv_eq [PyFloat F] {name text : Text} {fields : Fields F}
    (h : loads text = .ok (.obj fields)) : readJsonEnv name text = .ok fields := by
  have hne : text ≠ [] := by
    rintro rfl
    cases h
  rw [readJsonEnv, if_neg hne, h]

theorem postgresCompare_eq {reads : Text → Bool} {text text' : Text} {fields fields' : Fields F}
    {later : UtcDatetime} (h : loads text = .ok (.obj fields)) (h' : loads text' = .ok (.obj fields')) :
    postgresCompare F reads text text' later = verifyRestoreSnapshot reads fields fields' later := by
  rw [postgresCompare, readJsonEnv_eq h, readJsonEnv_eq h']
  rfl

theorem verifyRestoreSnapshot_eq_ok {reads : Text → Bool} {source restored : Fields F}
    {now : UtcDatetime} : (∃ report, verifyRestoreSnapshot reads source restored now = .ok report) ↔
      validateRestoreSnapshot reads source (lit "source") = .ok () ∧
      validateRestoreSnapshot reads restored (lit "restored") = .ok () ∧
      (get restored (lit "schema_version")).pyEq (get source (lit "schema_version")) = true ∧
      (get source (lit "target_identity_hmac_sha256")).pyEq
        (get restored (lit "target_identity_hmac_sha256")) = false ∧
      ∀ name ∈ comparedFields, (get source name).pyEq (get restored name) = true := by
  have hloop : comparedFields.forM (compareField source restored) = .ok () ↔
      ∀ name ∈ comparedFields, (get source name).pyEq (get restored name) = true := by
    rw [forM_eq_ok]
    refine forall₂_congr fun name _ => ?_
    rw [compareField, ite_error_eq_ok]
    simp
  unfold verifyRestoreSnapshot gateError
  constructor
  · rintro ⟨report, h⟩
    obtain ⟨⟨⟩, hsource, h⟩ := bind_eq_ok.mp h
    obtain ⟨⟨⟩, hrestored, h⟩ := bind_eq_ok.mp h
    rw [ite_error_eq_ok, ite_error_eq_ok] at h
    obtain ⟨hversion, hisolated, h⟩ := h
    obtain ⟨⟨⟩, hcompared, -⟩ := bind_eq_ok.mp h
    exact ⟨hsource, hrestored, by simpa using hversion, by simpa using hisolated, hloop.mp hcompared⟩
  · rintro ⟨hsource, hrestored, hversion, hisolated, hcompared⟩
    rw [hsource, hrestored]
    simp only [hversion, hisolated]
    rw [hloop.mpr hcompared]
    exact ⟨_, rfl⟩

/-- What the comparison of two snapshots that were taken comes to. -/
theorem Taken.compare_iff {source restored : SnapshotRequest} {db db' : Postgres F}
    {identity identity' : Text} {migrations migrations' : Fields F} {finding finding' : Row F}
    (h : Taken H compressed source db identity migrations finding)
    (h' : Taken H compressed restored db' identity' migrations' finding') {reads : Text → Bool}
    (hreads : ∀ d : UtcDatetime, reads ((isoformatMillis d).dropLast ++ lit "+00:00") = true)
    (now now' later : UtcDatetime) :
    (∃ report, verifyRestoreSnapshot reads
        (sortDict (takenDocument H source db now identity migrations finding))
        (sortDict (takenDocument H restored db' now' identity' migrations' finding')) later = .ok report) ↔
      identity ≠ identity' ∧ db.schemaMigrations.Perm db'.schemaMigrations ∧
      (∀ m ∈ db.schemaMigrations, isIdentifier m.1 = true) ∧
      source.syntheticPrefix = restored.syntheticPrefix ∧
      (∀ entry ∈ syntheticTableKeys, rowsEvidence H (db.synthetic source.syntheticPrefix entry) =
        rowsEvidence H (db'.synthetic restored.syntheticPrefix entry)) ∧
      H.hexdigest (rowBytes [finding]) = H.hexdigest (rowBytes [finding']) := by
  have hread : ReadBack (sortDict (takenDocument H source db now identity migrations finding))
      _ _ _ _ _ _ := readBack_takenDocument
  have hread' : ReadBack (sortDict (takenDocument H restored db' now' identity' migrations' finding'))
      _ _ _ _ _ _ := readBack_takenDocument
  have hmigrations : (Json.obj (sortDict migrations)).pyEq (.obj (sortDict migrations')) = true ↔
      db.schemaMigrations.Perm db'.schemaMigrations := by
    rw [pyEq_sortDict h.entries.exact h'.entries.exact, ← h.recorded, ← h'.recorded,
      sortKeys_actualMigrations_iff]
  have hcount : (Json.int requiredPostgresTables.length : Json F).pyEq
      (.int requiredPostgresTables.length) = true := by simp [pyEq, leafEq, number?, numEq]
  have hstr {s t : Text} : (Json.str s : Json F).pyEq (.str t) = true ↔ s = t := by
    rw [pyEq_str, Json.str.injEq]
  rw [verifyRestoreSnapshot_eq_ok, h.validate_iff (hreads now), h'.validate_iff (hreads now')]
  simp only [comparedFields, List.forall_mem_cons, List.not_mem_nil, false_implies, implies_true, and_true,
    hread.schemaVersion, hread'.schemaVersion, hread.identity, hread'.identity, hread.migrations,
    hread'.migrations, hread.tableCount, hread'.tableCount, hread.syntheticPrefix, hread'.syntheticPrefix,
    hread.synthetic, hread'.synthetic, hread.applicationRead, hread'.applicationRead, hmigrations, hcount,
    hstr, ← Bool.not_eq_true, true_and,
    pyEq_sortDict (exact_syntheticEvidence db _) (exact_syntheticEvidence db' _),
    sortKeys_syntheticEvidence_iff]
  constructor
  · rintro ⟨hnamed, -, hisolated, hperm, hbegins, htables, hread⟩
    exact ⟨hisolated, hperm, hnamed, hbegins, htables, hread⟩
  · rintro ⟨hisolated, hperm, hnamed, hbegins, htables, hread⟩
    exact ⟨hnamed, fun m hm => hnamed m (hperm.mem_iff.mpr hm), hisolated, hperm, hbegins, htables, hread⟩

/-- Printed snapshots compare as restored when the database is a restored copy, and only then,
unless rows that differ have the same hash. -/
theorem restore_comparison (compressed : Text → Option Text) (H : Digest)
    {source restored : SnapshotRequest} {db db' : Postgres F} {now now' : UtcDatetime}
    {document document' : Fields F} {text text' : Text}
    (hsource : postgresSnapshot H compressed source db now = .ok document)
    (hrestored : postgresSnapshot H compressed restored db' now' = .ok document')
    (hprinted : dumps Governance.spacedStyle (.obj document) = .ok text)
    (hprinted' : dumps Governance.spacedStyle (.obj document') = .ok text') (reads : Text → Bool)
    (hreads : ∀ d : UtcDatetime, reads ((isoformatMillis d).dropLast ++ lit "+00:00") = true)
    (later : UtcDatetime) :
    (Restores compressed H source restored db db' →
      ∃ report, postgresCompare F reads text text' later = .ok report) ∧
    ∀ report, postgresCompare F reads text text' later = .ok report →
      Restores compressed H source restored db db' ∨ SnapshotsCollide H source restored db db' := by
  obtain ⟨identity, migrations, finding, h, rfl⟩ := postgresSnapshot_eq_ok hsource
  obtain ⟨identity', migrations', finding', h', rfl⟩ := postgresSnapshot_eq_ok hrestored
  have hcompare : postgresCompare F reads text text' later = verifyRestoreSnapshot reads
      (sortDict (takenDocument H source db now identity migrations finding))
      (sortDict (takenDocument H restored db' now' identity' migrations' finding')) later := by
    exact postgresCompare_eq (h.loads_printed hprinted) (h'.loads_printed hprinted')
  have hidentity : identity ≠ identity' ↔ targetIdentityHmac H compressed (source.verifier ([] : Fields F)) db ≠
      targetIdentityHmac H compressed (restored.verifier []) db' := by
    rw [h.identity, h'.identity, ne_eq, ne_eq, Except.ok.injEq]
  have hiff := h.compare_iff h' hreads now now' later
  rw [hcompare]
  constructor
  · intro hrestores
    have happlication := hrestores.applicationRead
    rw [h.found, h'.found] at happlication
    exact hiff.mpr ⟨hidentity.mpr hrestores.isolated, hrestores.migrations, hrestores.named,
      hrestores.syntheticPrefix, fun entry hentry => (hrestores.tables entry hentry).rowsEvidence,
      happlication.hexdigest⟩
  · intro report hreport
    obtain ⟨hisolated, hmigrations, hnamed, hbegins, htables, hread⟩ := hiff.mp ⟨report, hreport⟩
    by_cases hcollide : SnapshotsCollide H source restored db db'
    · exact .inr hcollide
    · refine .inl ⟨hidentity.mp hisolated, hmigrations, hnamed, hbegins, fun entry hentry => ?_, ?_⟩
      · have hhash := (rowsEvidence_eq_iff.mp (htables entry hentry)).2
        exact (sameRows_of_hexdigest hhash).resolve_right fun hrows => hcollide (.inl ⟨entry, hentry, hrows⟩)
      · rw [h.found, h'.found]
        refine (sameRows_of_hexdigest hread).resolve_right fun hrows => hcollide (.inr ?_)
        rwa [h.found, h'.found]

/-! ### A restored copy -/

/-- A finding of the live gate. -/
def gateFinding : Row Tick where
  cells := [(lit "finding_id", .str (lit "LIVE-GATE-1")), (lit "status", .str (lit "open")),
    (lit "event_sequence", .int 1), (lit "updated_at", .float (.finite 2))]
  columns_nodup := by decide
  columns_scalar := by decide
  cells_stored := by decide

def gateMigration : Migrations.MigrationFile := ⟨lit "001_probe", [0x53, 0x45, 0x4C]⟩

/-- A database with that finding. -/
def gateDatabase (name : String) : Postgres Tick where
  settings := some (lit "repeatable read", lit "on")
  target := some ⟨lit name, 16384, some (lit "10.0.2.4"), some 5432⟩
  schemaMigrations := [(lit "001_probe", sha256.hexdigest [0x53, 0x45, 0x4C])]
  tableNames := requiredPostgresTables
  rows table := if table = lit "findings" then [gateFinding] else []
  migrationIds_nodup := List.nodup_singleton _
  schemaMigrations_scalar := List.forall_mem_singleton.mpr ⟨scalar_lit _, scalar_hexdigest _ _⟩

def gateRequest : SnapshotRequest :=
  ⟨lit "db.example", lit "/subscriptions/1", List.replicate 32 0x6B, [gateMigration], lit "LIVE-GATE",
    lit "LIVE-GATE-1"⟩

def gateDay : UtcDatetime := ⟨⟨2026, 9, 1, year_2026, by decide, by decide⟩, 0, 0, 0, 0⟩

theorem exists_printed (request : SnapshotRequest) (db : Postgres Tick) (now : UtcDatetime)
    (h : (postgresSnapshot sha256 some request db now).toOption.any (fun document =>
      (dumps Governance.spacedStyle (.obj document)).isOk) = true) :
    ∃ document text, postgresSnapshot sha256 some request db now = .ok document ∧
      dumps Governance.spacedStyle (.obj document) = .ok text := by
  cases hsnapshot : postgresSnapshot sha256 some request db now with
  | error e =>
    rw [hsnapshot] at h
    cases h
  | ok document =>
    rw [hsnapshot] at h
    obtain ⟨text, htext⟩ := exists_ok_of_isOk (r := dumps Governance.spacedStyle (.obj document)) h
    exact ⟨document, text, rfl, htext⟩

theorem targets_differ :
    (targetIdentityHmac sha256 some (gateRequest.verifier ([] : Fields Tick))
        (gateDatabase "sentinel")).toOption ≠
      (targetIdentityHmac sha256 some (gateRequest.verifier []) (gateDatabase "restored")).toOption := by
  decide +kernel

theorem rows_gateDatabase (name name' : String) : (gateDatabase name).rows = (gateDatabase name').rows :=
  rfl

theorem restores_gateDatabase :
    Restores some sha256 gateRequest gateRequest (gateDatabase "sentinel") (gateDatabase "restored") where
  isolated h := targets_differ (by rw [h])
  migrations := List.Perm.refl _
  named := List.forall_mem_singleton.mpr (by decide)
  syntheticPrefix := rfl
  tables entry _ := by
    rw [Postgres.synthetic, Postgres.synthetic, rows_gateDatabase "sentinel" "restored"]
    exact List.Perm.refl _
  applicationRead := by
    rw [Postgres.applicationRead, Postgres.applicationRead, rows_gateDatabase "sentinel" "restored"]
    exact List.Perm.refl _

theorem restore_comparison_copy : ∃ (text text' : Text) (report : RestoreReport Tick),
    postgresCompare Tick (fun _ => true) text text' gateDay = .ok report := by
  obtain ⟨document, text, hsource, hprinted⟩ :=
    exists_printed gateRequest (gateDatabase "sentinel") gateDay (by decide +kernel)
  obtain ⟨document', text', hrestored, hprinted'⟩ :=
    exists_printed gateRequest (gateDatabase "restored") gateDay (by decide +kernel)
  obtain ⟨report, hreport⟩ := (restore_comparison some sha256 hsource hrestored hprinted hprinted'
    (fun _ => true) (fun _ => rfl) gateDay).1
    restores_gateDatabase
  exact ⟨text, text', report, hreport⟩

end SentinelGRC.Delivery
