import SentinelGRC.Delivery.Local
import SentinelGRC.Transition.Retry

/-!
The adapters that keep their objects in blob storage. An attempt uploads the content, or
finds a blob under the name already, and then reads back what the service holds; it reports
the object when metadata, size, bytes and version tag are as they should be. An attempt
that a transient error has ended is followed by another one, up to a bound.
-/

namespace SentinelGRC.Delivery

open Python Json Store Governance Transition

/-! ### The blob client -/

/-- An exception of the client that is not a `ValueError`. -/
structure ClientError where
  statusCode : Option ℤ
  errorCode : Text
  name : Text

/-- `_already_exists`. -/
def ClientError.alreadyExists (e : ClientError) : Bool :=
  e.statusCode = some 409 &&
    [lit "BlobAlreadyExists", lit "ResourceAlreadyExists"].contains e.errorCode

def transientStatusCodes : List ℤ := [408, 429, 500, 502, 503, 504]

/-- `_transient`. -/
def ClientError.transient (e : ClientError) : Bool :=
  e.statusCode.any transientStatusCodes.contains ||
    [lit "ServiceRequestError", lit "ServiceResponseError"].contains e.name

/-- The attribute `etag` of the properties. -/
inductive Etag
  | absent
  | none
  | text (value : Text)

/-- `str(getattr(properties, "etag", ""))`. -/
def Etag.str : Etag → Text
  | absent => []
  | none => lit "None"
  | text value => value

/-- `strip('"')`. -/
def unquote (t : Text) : Text :=
  (t.dropWhile fun c => c = 0x22).rdropWhile fun c => c = 0x22

/-- What `get_blob_properties` returns. -/
structure BlobProperties where
  metadata : Option (List (Text × Text))
  size : Option ℤ
  etag : Etag

/-- What the calls of one attempt return or raise. What was downloaded need not be bytes. -/
structure Answers where
  client : Except ClientError Unit
  upload : Except ClientError Unit
  properties : Except ClientError BlobProperties
  download : Except ClientError (Option Bytes)

/-! ### The adapters -/

/-- The messages of an adapter. -/
structure BlobTexts where
  inconsistent : Text
  altered : Text
  unversioned : Text
  unavailable : Text

/-- The messages of the integrity errors. -/
def BlobTexts.integrity (texts : BlobTexts) : List Text :=
  [texts.inconsistent, texts.altered, texts.unversioned]

/-- How an attempt fails. -/
inductive BlobFailure
  | integrity (message : Text)
  | client (error : ClientError)

/-- What an adapter raises once the content has been accepted: its integrity error or its
own error type. -/
inductive BlobError
  | integrity (message : Text)
  | unavailable (message : Text)

/-- The metadata and the size that the upload has set. -/
def BlobProperties.describes (p : BlobProperties) (digest : Text) (content : Bytes) : Prop :=
  (p.metadata.getD []).lookup (lit "sha256") = some digest ∧
    (p.metadata.getD []).lookup (lit "size") = some (natText content.length) ∧
      p.size = some (content.length : ℤ)

instance (p : BlobProperties) (digest : Text) (content : Bytes) :
    Decidable (p.describes digest content) :=
  inferInstanceAs (Decidable (_ ∧ _ ∧ _))

/-- The downloaded value is bytes of the content's length and digest. -/
def isStored (H : Digest) (content : Bytes) (digest : Text) : Option Bytes → Bool
  | some stored => stored.length = content.length && H.hexdigest stored = digest
  | none => false

/-- The calls that leave a blob under the name. -/
def uploadBlob (a : Answers) : Except ClientError Unit :=
  match a.client, a.upload with
  | .error e, _ => .error e
  | .ok (), .ok () => .ok ()
  | .ok (), .error e => if e.alreadyExists then .ok () else .error e

/-- `_persist_once`, up to the version tag of the object that it returns. -/
def persistOnce (texts : BlobTexts) (H : Digest) (content : Bytes) (digest : Text) (a : Answers) :
    Except BlobFailure Text :=
  match uploadBlob a with
  | .error e => .error (.client e)
  | .ok () =>
    match a.properties with
    | .error e => .error (.client e)
    | .ok p =>
      if ¬ p.describes digest content then .error (.integrity texts.inconsistent)
      else
        match a.download with
        | .error e => .error (.client e)
        | .ok stored =>
          let etag := unquote p.etag.str
          if ¬ isStored H content digest stored then .error (.integrity texts.altered)
          else if etag.isEmpty then .error (.integrity texts.unversioned)
          else .ok etag

/-- One turn of the loop: the object, an error, or nothing when another attempt follows. -/
def persistTurn {α : Type} (texts : BlobTexts) (retryAttempts : ℕ) (object : Text → α) (attempt : ℕ) :
    Except BlobFailure Text → Option (Except BlobError α)
  | .ok etag => some (.ok (object etag))
  | .error (.integrity message) => some (.error (.integrity message))
  | .error (.client e) =>
    if ¬ e.transient ∨ retryAttempts ≤ attempt then some (.error (.unavailable texts.unavailable))
    else none

/-- The loop of `persist` and of `persist_event`. -/
def persistBlob {α : Type} (texts : BlobTexts) (H : Digest) (retryAttempts : ℕ) (object : Text → α)
    (content : Bytes) (digest : Text) (answers : ℕ → Answers) : Settled (Except BlobError α) :=
  retry (fun attempt => persistTurn texts retryAttempts object attempt
      (persistOnce texts H content digest (answers attempt)))
    (.error (.unavailable texts.unavailable)) (retryAttempts + 1) 0

def evidenceTexts : BlobTexts where
  inconsistent := lit "stored evidence metadata is inconsistent"
  altered := lit "stored evidence failed integrity verification"
  unversioned := lit "stored evidence has no immutable version tag"
  unavailable := lit "evidence storage is unavailable"

def auditTexts : BlobTexts where
  inconsistent := lit "archived audit metadata is inconsistent"
  altered := lit "archived audit event failed integrity verification"
  unversioned := lit "archived audit event has no immutable version tag"
  unavailable := lit "audit archive is unavailable"

/-- `AzureBlobEvidenceStore.persist`. -/
def AzureBlobEvidenceStore.persist (H : Digest) (retryAttempts : ℕ) (answers : ℕ → Answers)
    (content : Bytes) : Except PyError (Settled (Except BlobError EvidenceObject)) := do
  let (digest, objectKey) ← validateContent H content
  return persistBlob evidenceTexts H retryAttempts
    (fun etag => ⟨objectKey, digest, content.length, etag⟩) content digest answers

/-- `AzureBlobAuditArchive.persist_event`. -/
def AzureBlobAuditArchive.persistEvent {F : Type} [PyFloat F] (H : Digest) (retryAttempts : ℕ)
    (answers : ℕ → Answers) (event : Json F) :
    Except ArchiveError (Settled (Except BlobError ArchivedAuditObject)) := do
  let (content, digest, objectKey) ← serializeEvent H event
  return persistBlob auditTexts H retryAttempts
    (fun etag => ⟨objectKey, digest, content.length, etag⟩) content digest answers

/-! ### Attempts -/

variable {texts : BlobTexts} {H : Digest} {content : Bytes} {digest : Text} {a : Answers}
  {p : BlobProperties} {e : ClientError}

/-- A blob is under the name: the client has uploaded it or has found one there. -/
def Uploaded (a : Answers) : Prop :=
  a.client = .ok () ∧ (a.upload = .ok () ∨ ∃ e, a.upload = .error e ∧ e.alreadyExists = true)

/-- Everything the service says of the blob is what the content calls for. -/
structure Verified (H : Digest) (content : Bytes) (a : Answers) (p : BlobProperties) : Prop where
  uploaded : Uploaded a
  properties : a.properties = .ok p
  described : p.describes (H.hexdigest content) content
  stored : ∃ stored, a.download = .ok (some stored) ∧ stored.length = content.length ∧
    H.hexdigest stored = H.hexdigest content

/-- The error that ends an attempt: that of the first call which raises, when the calls
before it have given no other reason to stop. -/
inductive Fails (H : Digest) (content : Bytes) (a : Answers) (e : ClientError) : Prop
  | client (client : a.client = .error e)
  | upload (client : a.client = .ok ()) (upload : a.upload = .error e)
      (conflict : e.alreadyExists = false)
  | properties (uploaded : Uploaded a) (properties : a.properties = .error e)
  | download (uploaded : Uploaded a) (p : BlobProperties) (properties : a.properties = .ok p)
      (described : p.describes (H.hexdigest content) content) (download : a.download = .error e)

theorem uploadBlob_of_uploaded (h : Uploaded a) : uploadBlob a = .ok () := by
  obtain ⟨hclient, hupload | ⟨e, hupload, hexists⟩⟩ := h
  · simp [uploadBlob, hclient, hupload]
  · simp [uploadBlob, hclient, hupload, hexists]

theorem uploadBlob_cases (a : Answers) :
    Uploaded a ∨ ∃ e, ∀ (H : Digest) (content : Bytes), Fails H content a e := by
  cases hclient : a.client with
  | error e => exact .inr ⟨e, fun _ _ => .client hclient⟩
  | ok u =>
    cases hupload : a.upload with
    | ok v => exact .inl ⟨hclient, .inl hupload⟩
    | error e =>
      cases hexists : e.alreadyExists with
      | true => exact .inl ⟨hclient, .inr ⟨e, hupload, hexists⟩⟩
      | false => exact .inr ⟨e, fun _ _ => .upload hclient hupload hexists⟩

theorem isStored_eq_true {stored : Option Bytes} :
    isStored H content digest stored = true ↔
      ∃ bytes, stored = some bytes ∧ bytes.length = content.length ∧ H.hexdigest bytes = digest := by
  cases stored <;> simp [isStored]

/-- An error of the client ends the attempt. -/
theorem persistOnce_of_fails (h : Fails H content a e) :
    persistOnce texts H content (H.hexdigest content) a = .error (.client e) := by
  cases h with
  | client hclient => simp [persistOnce, uploadBlob, hclient]
  | upload hclient hupload hexists => simp [persistOnce, uploadBlob, hclient, hupload, hexists]
  | properties huploaded hproperties =>
    simp [persistOnce, uploadBlob_of_uploaded huploaded, hproperties]
  | download huploaded p hproperties hdescribed hdownload =>
    simp [persistOnce, uploadBlob_of_uploaded huploaded, hproperties, hdescribed, hdownload]

/-- A verified attempt ends with the version tag, or without one. -/
theorem persistOnce_of_verified (h : Verified H content a p) :
    persistOnce texts H content (H.hexdigest content) a =
      if unquote p.etag.str = [] then .error (.integrity texts.unversioned)
      else .ok (unquote p.etag.str) := by
  obtain ⟨stored, hdownload, hstored⟩ := h.stored
  have hverified : isStored H content (H.hexdigest content) (some stored) = true :=
    isStored_eq_true.mpr ⟨stored, rfl, hstored⟩
  simp [persistOnce, uploadBlob_of_uploaded h.uploaded, h.properties, h.described, hdownload, hverified]

/-- Otherwise the attempt ends with an integrity error. -/
theorem persistOnce_cases (texts : BlobTexts) (H : Digest) (content : Bytes) (a : Answers) :
    (∃ p, Verified H content a p) ∨ (∃ e, Fails H content a e) ∨
      ∃ message ∈ texts.integrity,
        persistOnce texts H content (H.hexdigest content) a = .error (.integrity message) := by
  rcases uploadBlob_cases a with huploaded | ⟨e, hfails⟩
  · cases hproperties : a.properties with
    | error e => exact .inr (.inl ⟨e, .properties huploaded hproperties⟩)
    | ok p =>
      by_cases hdescribed : p.describes (H.hexdigest content) content
      · cases hdownload : a.download with
        | error e => exact .inr (.inl ⟨e, .download huploaded p hproperties hdescribed hdownload⟩)
        | ok stored =>
          cases hverified : isStored H content (H.hexdigest content) stored with
          | true =>
            obtain ⟨bytes, rfl, hstored⟩ := isStored_eq_true.mp hverified
            exact .inl ⟨p, huploaded, hproperties, hdescribed, bytes, hdownload, hstored⟩
          | false =>
            refine .inr (.inr ⟨texts.altered, by simp [BlobTexts.integrity], ?_⟩)
            simp [persistOnce, uploadBlob_of_uploaded huploaded, hproperties, hdescribed, hdownload,
              hverified]
      · refine .inr (.inr ⟨texts.inconsistent, by simp [BlobTexts.integrity], ?_⟩)
        simp [persistOnce, uploadBlob_of_uploaded huploaded, hproperties, hdescribed]
  · exact .inr (.inl ⟨e, hfails H content⟩)

/-! ### Runs -/

/-- An attempt that may be followed by another one. -/
def Interrupted (H : Digest) (content : Bytes) (a : Answers) : Prop :=
  ∃ e, Fails H content a e ∧ e.transient = true

/-- A call that reports verified objects only, and raises nothing but its own errors. -/
structure ReportsVerified {α : Type} (texts : BlobTexts) (H : Digest) (content : Bytes)
    (retryAttempts : ℕ) (object : Text → α) (answers : ℕ → Answers)
    (run : Settled (Except BlobError α)) : Prop where
  /-- The last attempt has verified what is reported, under the version tag it was given. -/
  reported : ∀ o, run.result = .ok o → ∃ i p tag, run.attempts = i + 1 ∧
    Verified H content (answers i) p ∧ p.etag = .text tag ∧ unquote tag ≠ [] ∧ o = object (unquote tag)
  bounded : run.attempts ≤ retryAttempts + 1
  retried : ∀ i, i + 1 < run.attempts → Interrupted H content (answers i)
  raised : ∀ error, run.result = .error error →
    (∃ message ∈ texts.integrity, error = .integrity message) ∨ error = .unavailable texts.unavailable

/-- The first attempt that is not interrupted does not verify a blob whose version tag is
`None`. -/
def Tagged (H : Digest) (content : Bytes) (retryAttempts : ℕ) (answers : ℕ → Answers) : Prop :=
  ∀ i ≤ retryAttempts, (∀ j < i, Interrupted H content (answers j)) →
    ∀ p, Verified H content (answers i) p → p.etag ≠ .none

section Run

variable {α : Type} {retryAttempts i : ℕ} {object : Text → α} {answers : ℕ → Answers}

/-- A turn of the loop at the given answers. -/
def turn (texts : BlobTexts) (H : Digest) (content : Bytes) (retryAttempts : ℕ) (object : Text → α)
    (answers : ℕ → Answers) (i : ℕ) : Option (Except BlobError α) :=
  persistTurn texts retryAttempts object i (persistOnce texts H content (H.hexdigest content) (answers i))

theorem turn_of_interrupted (h : Interrupted H content (answers i)) (hi : i < retryAttempts) :
    turn texts H content retryAttempts object answers i = none := by
  obtain ⟨e, hfails, htransient⟩ := h
  rw [turn, persistOnce_of_fails hfails, persistTurn]
  simp [htransient, hi]

/-- What a turn makes of the attempt. -/
theorem turn_cases (texts : BlobTexts) (H : Digest) (content : Bytes) (retryAttempts : ℕ)
    (object : Text → α) (answers : ℕ → Answers) (i : ℕ) :
    (∃ p, Verified H content (answers i) p ∧ unquote p.etag.str ≠ [] ∧
      turn texts H content retryAttempts object answers i = some (.ok (object (unquote p.etag.str)))) ∨
    (∃ message ∈ texts.integrity,
      turn texts H content retryAttempts object answers i = some (.error (.integrity message))) ∨
    turn texts H content retryAttempts object answers i =
      some (.error (.unavailable texts.unavailable)) ∨
    Interrupted H content (answers i) ∧ i < retryAttempts ∧
      turn texts H content retryAttempts object answers i = none := by
  rcases persistOnce_cases texts H content (answers i) with ⟨p, hp⟩ | ⟨e, he⟩ | ⟨message, hmem, h⟩
  · by_cases htag : unquote p.etag.str = []
    · refine .inr (.inl ⟨texts.unversioned, by simp [BlobTexts.integrity], ?_⟩)
      rw [turn, persistOnce_of_verified hp, if_pos htag]
      rfl
    · refine .inl ⟨p, hp, htag, ?_⟩
      rw [turn, persistOnce_of_verified hp, if_neg htag]
      rfl
  · by_cases hlast : ¬ e.transient = true ∨ retryAttempts ≤ i
    · refine .inr (.inr (.inl ?_))
      rw [turn, persistOnce_of_fails he]
      exact if_pos hlast
    · rw [not_or, not_not, not_le] at hlast
      have hinterrupted : Interrupted H content (answers i) := ⟨e, he, hlast.1⟩
      exact .inr (.inr (.inr ⟨hinterrupted, hlast.2, turn_of_interrupted hinterrupted hlast.2⟩))
  · refine .inr (.inl ⟨message, hmem, ?_⟩)
    rw [turn, h]
    rfl

theorem interrupted_of_turn (h : turn texts H content retryAttempts object answers i = none) :
    Interrupted H content (answers i) ∧ i < retryAttempts := by
  rcases turn_cases texts H content retryAttempts object answers i with
    ⟨p, -, -, hturn⟩ | ⟨message, -, hturn⟩ | hturn | ⟨hinterrupted, hi, -⟩
  · rw [hturn] at h
    cases h
  · rw [hturn] at h
    cases h
  · rw [hturn] at h
    cases h
  · exact ⟨hinterrupted, hi⟩

/-- The call ends with the first turn that ends it. -/
theorem persistBlob_eq {result : Except BlobError α} (hi : i ≤ retryAttempts)
    (hnone : ∀ j < i, turn texts H content retryAttempts object answers j = none)
    (hsome : turn texts H content retryAttempts object answers i = some result) :
    persistBlob texts H retryAttempts object content (H.hexdigest content) answers = ⟨i + 1, result⟩ := by
  apply retry_eq_of_first (Nat.zero_le i)
  · omega
  · intro j _ hj
    exact hnone j hj
  · exact hsome

theorem persistBlob_reportsVerified_iff (texts : BlobTexts) (H : Digest) (content : Bytes)
    (retryAttempts : ℕ) (object : Text → α) (answers : ℕ → Answers) :
    ReportsVerified texts H content retryAttempts object answers
        (persistBlob texts H retryAttempts object content (H.hexdigest content) answers) ↔
      Tagged H content retryAttempts answers := by
  constructor
  · intro h i hi hbefore p hverified hnone
    have hturn : turn texts H content retryAttempts object answers i =
        some (.ok (object (lit "None"))) := by
      rw [turn, persistOnce_of_verified hverified, hnone]
      rfl
    have hrun := persistBlob_eq hi (fun j hj => turn_of_interrupted (hbefore j hj) (by omega)) hturn
    rw [hrun] at h
    obtain ⟨k, q, tag, hk, hq, htag, -⟩ := h.reported _ rfl
    obtain rfl : i = k := by simpa using hk
    obtain rfl : p = q := Except.ok.inj (hverified.properties.symm.trans hq.properties)
    rw [hnone] at htag
    cases htag
  · intro htagged
    have hlast : turn texts H content retryAttempts object answers retryAttempts ≠ none := by
      intro h
      exact absurd (interrupted_of_turn h).2 (lt_irrefl _)
    obtain ⟨k, result, hk, hnone, hsome⟩ := exists_first hlast
    have hbefore : ∀ j < k, Interrupted H content (answers j) :=
      fun j hj => (interrupted_of_turn (hnone j hj)).1
    rw [persistBlob_eq hk hnone hsome]
    refine ⟨?_, by simpa using hk, fun i hi => hbefore i (by simpa using hi), ?_⟩
    · rintro o rfl
      rcases turn_cases texts H content retryAttempts object answers k with
        ⟨p, hp, hne, hturn⟩ | ⟨message, -, hturn⟩ | hturn | ⟨-, -, hturn⟩
      · have ho : o = object (unquote p.etag.str) := by
          rw [hturn] at hsome
          simpa using hsome.symm
        cases hetag : p.etag with
        | absent =>
          rw [hetag] at hne
          exact absurd rfl hne
        | none => exact absurd hetag (htagged k hk hbefore p hp)
        | text tag =>
          rw [hetag] at hne ho
          exact ⟨k, p, tag, rfl, hp, hetag, hne, ho⟩
      · rw [hturn] at hsome
        cases hsome
      · rw [hturn] at hsome
        cases hsome
      · rw [hturn] at hsome
        cases hsome
    · rintro error rfl
      rcases turn_cases texts H content retryAttempts object answers k with
        ⟨p, -, -, hturn⟩ | ⟨message, hmem, hturn⟩ | hturn | ⟨-, -, hturn⟩
      · rw [hturn] at hsome
        cases hsome
      · rw [hturn] at hsome
        cases hsome
        exact .inl ⟨message, hmem, rfl⟩
      · rw [hturn] at hsome
        cases hsome
        exact .inr rfl
      · rw [hturn] at hsome
        cases hsome

end Run

/-- With any accepted content, a call of either adapter reports verified objects only if and
only if the service does not give `None` as the version tag of a blob that verifies. -/
theorem persist_reportsVerified_iff (F : Type) [PyFloat F] (H : Digest) (retryAttempts : ℕ)
    (answers : ℕ → Answers) :
    (∀ (content : Bytes) (digest objectKey : Text),
      validateContent H content = .ok (digest, objectKey) →
        ∃ run, AzureBlobEvidenceStore.persist H retryAttempts answers content = .ok run ∧
          (ReportsVerified evidenceTexts H content retryAttempts
            (EvidenceObject.mk objectKey (H.hexdigest content) content.length) answers run ↔
              Tagged H content retryAttempts answers)) ∧
    ∀ (event : Json F) (content : Bytes) (digest objectKey : Text),
      serializeEvent H event = .ok (content, digest, objectKey) →
        ∃ run, AzureBlobAuditArchive.persistEvent H retryAttempts answers event = .ok run ∧
          (ReportsVerified auditTexts H content retryAttempts
            (ArchivedAuditObject.mk objectKey (H.hexdigest content) content.length) answers run ↔
              Tagged H content retryAttempts answers) := by
  constructor
  · intro content digest objectKey h
    refine ⟨_, bind_eq_ok.mpr ⟨_, h, rfl⟩, ?_⟩
    rw [digest_of_validateContent h]
    exact persistBlob_reportsVerified_iff ..
  · intro event content digest objectKey h
    refine ⟨_, bind_eq_ok.mpr ⟨_, h, rfl⟩, ?_⟩
    rw [digest_of_serializeEvent h]
    exact persistBlob_reportsVerified_iff ..

/-! ### A version tag of two bytes of evidence -/

section Example

/-- Every call succeeds, and the service reports this version tag. -/
def stored (H : Digest) (content : Bytes) (etag : Etag) : Answers where
  client := .ok ()
  upload := .ok ()
  properties := .ok
    { metadata := some [(lit "sha256", H.hexdigest content), (lit "size", natText content.length)]
      size := some content.length
      etag := etag }
  download := .ok (some content)

theorem verified_stored (H : Digest) (content : Bytes) (etag : Etag) :
    ∃ p, Verified H content (stored H content etag) p ∧ p.etag = etag :=
  ⟨_, ⟨⟨rfl, .inl rfl⟩, rfl, ⟨rfl, rfl, rfl⟩, content, rfl, rfl, rfl⟩, rfl⟩

/-- The service reports a quoted tag. -/
theorem persist_reportsVerified_iff_quoted : ∃ run,
    AzureBlobEvidenceStore.persist sha256 3
      (fun _ => stored sha256 twoBytes (.text (lit "\"0x8D\""))) twoBytes = .ok run ∧
    ReportsVerified evidenceTexts sha256 twoBytes 3
      (EvidenceObject.mk (twoBytesKey sha256) (sha256.hexdigest twoBytes) twoBytes.length)
      (fun _ => stored sha256 twoBytes (.text (lit "\"0x8D\""))) run := by
  obtain ⟨run, hrun, hiff⟩ := (persist_reportsVerified_iff Empty sha256 3
    fun _ => stored sha256 twoBytes (.text (lit "\"0x8D\""))).1 twoBytes _ _
      (validateContent_twoBytes sha256)
  refine ⟨run, hrun, hiff.mpr ?_⟩
  intro i _ _ p hp hnone
  obtain rfl := Except.ok.inj hp.properties
  cases hnone

/-- The service reports `None`. -/
theorem not_reportsVerified_none : ¬ ∀ (retryAttempts : ℕ) (answers : ℕ → Answers) (content : Bytes)
    (digest objectKey : Text), validateContent sha256 content = .ok (digest, objectKey) →
      ∃ run, AzureBlobEvidenceStore.persist sha256 retryAttempts answers content = .ok run ∧
        ReportsVerified evidenceTexts sha256 content retryAttempts
          (EvidenceObject.mk objectKey (sha256.hexdigest content) content.length) answers run := by
  intro h
  obtain ⟨run, hrun, hreports⟩ := h 0 (fun _ => stored sha256 twoBytes .none) twoBytes _ _
    (validateContent_twoBytes sha256)
  obtain ⟨_, hvalid, hpersist⟩ := bind_eq_ok.mp hrun
  obtain rfl := Except.ok.inj ((validateContent_twoBytes sha256).symm.trans hvalid)
  obtain rfl := Except.ok.inj hpersist
  have htagged := (persistBlob_reportsVerified_iff ..).mp hreports
  obtain ⟨p, hp, hnone⟩ := verified_stored sha256 twoBytes .none
  exact htagged 0 le_rfl (fun j hj => absurd hj (Nat.not_lt_zero j)) p hp hnone

end Example

end SentinelGRC.Delivery
