import SentinelGRC.Delivery.Archive
import SentinelGRC.Governance.EvidenceStore
import SentinelGRC.Store.CreateOnly

/-!
The adapters of the lab mode, which keep their objects in files. A file is created under
its final name before its content is written, so a process that dies in between leaves a
part of it there; the call that finds the file compares it and refuses it.
-/

namespace SentinelGRC.Delivery

open Python Json Store Governance

/-- The files under the root of an adapter, by their paths from there. -/
abbrev LocalFiles := Files Text UInt8

/-! ### Adapters -/

/-- `LocalAuditArchive.persist_event`. -/
def LocalAuditArchive.persistEvent {F : Type} [PyFloat F] (H : Digest) (files : LocalFiles)
    (event : Json F) : LocalFiles × Except ArchiveError ArchivedAuditObject :=
  match serializeEvent H event with
  | .error e => (files, .error e)
  | .ok (content, digest, objectKey) =>
    let files := createOnly files objectKey content
    let stored := (files objectKey).getD []
    if stored.length ≠ content.length ∨ H.hexdigest stored ≠ digest then
      (files, .error (.integrity (lit "archived audit event failed integrity verification")))
    else (files, .ok ⟨objectKey, digest, content.length, digest⟩)

/-- `LocalEvidenceStore`. -/
def localEvidenceStore (H : Digest) : EvidenceStore LocalFiles where
  persist := fun files content =>
    match validateContent H content with
    | .error e => (files, .error e)
    | .ok (digest, objectKey) =>
      let files := createOnly files objectKey content
      let stored := (files objectKey).getD []
      if stored.length ≠ content.length ∨ H.hexdigest stored ≠ digest then
        (files, .error (.runtimeError (lit "stored evidence failed integrity verification")))
      else (files, .ok ⟨objectKey, digest, content.length, digest⟩)

def messagePath (message : OutboxMessage) : Text := message.messageId ++ lit ".json"

/-- `LocalOutboxPublisher.publish`: the broker's name of the message. -/
def LocalOutboxPublisher.publish (files : LocalFiles) (message : OutboxMessage) :
    LocalFiles × Except OutboxError Text :=
  match files (messagePath message) with
  | some stored =>
    if stored ≠ message.body then (files, .error (.permanent (lit "local message identity collision")))
    else (files, .ok message.messageId)
  | none => (createOnly files (messagePath message) message.body, .ok message.messageId)

/-! ### Recovery -/

variable {ε α : Type}

/-- The call succeeded, and the file holds the content. -/
def Stored (path : Text) (content : Bytes) (out : LocalFiles × Except ε α) : Prop :=
  (∃ a, out.2 = .ok a) ∧ out.1 path = some content

theorem digest_of_serializeEvent {F : Type} [PyFloat F] {H : Digest} {event : Json F}
    {content : Bytes} {digest objectKey : Text}
    (h : serializeEvent H event = .ok (content, digest, objectKey)) : digest = H.hexdigest content := by
  obtain ⟨fields, -, h⟩ := bind_eq_ok.mp h
  obtain ⟨identity, -, h⟩ := bind_eq_ok.mp h
  obtain ⟨-, -, h⟩ := bind_eq_ok.mp h
  obtain ⟨previousHash, -, h⟩ := bind_eq_ok.mp h
  obtain ⟨-, -, h⟩ := bind_eq_ok.mp h
  obtain ⟨⟨bytes, d⟩, hserialize, h⟩ := bind_eq_ok.mp h
  obtain ⟨key, -, h⟩ := bind_eq_ok.mp h
  cases h
  obtain ⟨text, -, hserialize⟩ := bind_eq_ok.mp (mapError_eq_ok.mp hserialize)
  obtain ⟨encoded, -, hserialize⟩ := bind_eq_ok.mp hserialize
  by_cases hsize : encoded.isEmpty = true ∨ maxAuditEventBytes < encoded.length
  · rw [if_pos hsize] at hserialize
    cases hserialize
  · rw [if_neg hsize] at hserialize
    cases hserialize
    rfl

theorem digest_of_validateContent {H : Digest} {content : Bytes} {digest objectKey : Text}
    (h : validateContent H content = .ok (digest, objectKey)) : digest = H.hexdigest content := by
  unfold validateContent at h
  split_ifs at h
  cases h
  rfl

/-- Read back and compared, the object is stored exactly when the file holds the content. -/
theorem stored_iff {H : Digest} {files : LocalFiles} {path digest : Text} {content : Bytes} {e : ε}
    {a : α} (hdigest : digest = H.hexdigest content) :
    Stored path content (if ((files path).getD []).length ≠ content.length ∨
      H.hexdigest ((files path).getD []) ≠ digest then (files, .error e)
      else (files, (.ok a : Except ε α))) ↔ files path = some content := by
  constructor
  · intro h
    split_ifs at h
    · obtain ⟨⟨a', ha⟩, -⟩ := h
      cases ha
    · exact h.2
  · intro hfile
    rw [hfile, Option.getD_some, if_neg (by simp [hdigest])]
    exact ⟨⟨a, rfl⟩, hfile⟩

theorem stored_persistEvent {F : Type} [PyFloat F] {H : Digest} {files : LocalFiles} {event : Json F}
    {content : Bytes} {digest objectKey : Text}
    (h : serializeEvent H event = .ok (content, digest, objectKey)) :
    Stored objectKey content (LocalAuditArchive.persistEvent H files event) ↔
      createOnly files objectKey content objectKey = some content := by
  unfold LocalAuditArchive.persistEvent
  rw [h]
  exact stored_iff (digest_of_serializeEvent h)

theorem stored_persist {H : Digest} {files : LocalFiles} {content : Bytes} {digest objectKey : Text}
    (h : validateContent H content = .ok (digest, objectKey)) :
    Stored objectKey content ((localEvidenceStore H).persist files content) ↔
      createOnly files objectKey content objectKey = some content := by
  unfold localEvidenceStore
  simp only [h]
  exact stored_iff (digest_of_validateContent h)

theorem stored_publish {files : LocalFiles} {message : OutboxMessage} :
    Stored (messagePath message) message.body (LocalOutboxPublisher.publish files message) ↔
      createOnly files (messagePath message) message.body (messagePath message) =
        some message.body := by
  unfold LocalOutboxPublisher.publish
  cases hfile : files (messagePath message) with
  | none => exact ⟨fun h => h.2, fun h => ⟨⟨_, rfl⟩, h⟩⟩
  | some stored =>
    rw [createOnly_of_some hfile, hfile]
    simp only
    split_ifs with hsame
    · constructor
      · rintro ⟨⟨a, ha⟩, -⟩
        cases ha
      · intro h
        exact absurd (Option.some.inj h) hsame
    · exact ⟨fun h => hfile.symm.trans h.2, fun h => ⟨⟨_, rfl⟩, hfile.trans h⟩⟩

/-- A call after a crash succeeds and leaves the content stored if and only if the file was
complete before, or there was none and the process died before it created the file or after
its last byte. -/
theorem recovered_iff (F : Type) [PyFloat F] (H : Digest) (files : LocalFiles) (n : ℕ) :
    (∀ (event : Json F) (content : Bytes) (digest objectKey : Text),
      serializeEvent H event = .ok (content, digest, objectKey) →
        (Stored objectKey content (LocalAuditArchive.persistEvent H
          (crashed files objectKey content n) event) ↔ Whole files objectKey content n)) ∧
    (∀ (content : Bytes) (digest objectKey : Text),
      validateContent H content = .ok (digest, objectKey) →
        (Stored objectKey content ((localEvidenceStore H).persist
          (crashed files objectKey content n) content) ↔ Whole files objectKey content n)) ∧
    ∀ message : OutboxMessage, Stored (messagePath message) message.body
        (LocalOutboxPublisher.publish (crashed files (messagePath message) message.body n) message) ↔
      Whole files (messagePath message) message.body n := by
  refine ⟨?_, ?_, ?_⟩
  · intro event content digest objectKey h
    rw [stored_persistEvent h, createOnly_crashed]
  · intro content digest objectKey h
    rw [stored_persist h, createOnly_crashed]
  · intro message
    rw [stored_publish, createOnly_crashed]

/-! ### Two bytes of evidence -/

section Example

def twoBytes : Bytes := [0x61, 0x62]

def twoBytesKey (H : Digest) : Text :=
  lit "sha256/" ++ (H.hexdigest twoBytes).take 2 ++ lit "/" ++ H.hexdigest twoBytes

theorem validateContent_twoBytes (H : Digest) :
    validateContent H twoBytes = .ok (H.hexdigest twoBytes, twoBytesKey H) := rfl

/-- The process dies before it creates the file. -/
theorem recovered_iff_twoBytes : Stored (twoBytesKey sha256) twoBytes
    ((localEvidenceStore sha256).persist (crashed (fun _ => none) (twoBytesKey sha256) twoBytes 0)
      twoBytes) :=
  ((recovered_iff Empty sha256 (fun _ => none) 0).2.1 twoBytes _ _ (validateContent_twoBytes sha256)).mpr
    (.inr ⟨rfl, .inl rfl⟩)

/-- The process dies after the first byte. -/
theorem not_recovered_half : ¬ ∀ (content : Bytes) (digest objectKey : Text) (n : ℕ),
    validateContent sha256 content = .ok (digest, objectKey) → Stored objectKey content
      ((localEvidenceStore sha256).persist (crashed (fun _ => none) objectKey content n) content) := by
  intro h
  have hhalf := (stored_persist (validateContent_twoBytes sha256)).mp
    (h twoBytes _ _ 2 (validateContent_twoBytes sha256))
  rw [createOnly_crashed] at hhalf
  rcases hhalf with hbefore | ⟨-, hn⟩
  · cases hbefore
  · revert hn
    decide

end Example

end SentinelGRC.Delivery
