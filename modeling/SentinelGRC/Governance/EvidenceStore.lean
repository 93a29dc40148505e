import SentinelGRC.Python.Hashlib
import SentinelGRC.Store.Table

/-!
Evidence storage. A store keeps the bytes it is given under a key of its own and says
where; the in-memory adapter names objects by the SHA-256 of their content.
-/

namespace SentinelGRC.Governance

open Python Store

/-- What a store says about a persisted object. -/
structure EvidenceObject where
  objectKey : Text
  sha256 : Text
  sizeBytes : ℕ
  etag : Text

/-- An adapter with states `S`. -/
structure EvidenceStore (S : Type) where
  persist : S → Bytes → S × Except PyError EvidenceObject

abbrev MemoryObjects := Table (Text × Bytes) Text Prod.fst

/-- `_validate_content`: the digest and the object key. -/
def validateContent (H : Digest) (content : Bytes) : Except PyError (Text × Text) :=
  if content.isEmpty ∨ 256 * 1024 < content.length then
    .error (.valueError (lit "evidence content must be non-empty and within the size limit"))
  else
    let digest := H.hexdigest content
    .ok (digest, lit "sha256/" ++ digest.take 2 ++ lit "/" ++ digest)

/-- `objects.setdefault(key, content)`. -/
def setDefault (objects : MemoryObjects) (key : Text) (content : Bytes) : MemoryObjects × Bytes :=
  match objects.find? key with
  | some (_, existing) => (objects, existing)
  | none => (objects.put (key, content), content)

/-- `MemoryEvidenceStore`. -/
def memoryEvidenceStore (H : Digest) : EvidenceStore MemoryObjects where
  persist := fun objects content =>
    match validateContent H content with
    | .error e => (objects, .error e)
    | .ok (digest, objectKey) =>
      let (objects, existing) := setDefault objects objectKey content
      if H.hexdigest existing ≠ digest then
        (objects, .error (.runtimeError (lit "stored evidence failed integrity verification")))
      else (objects, .ok ⟨objectKey, digest, content.length, digest⟩)

end SentinelGRC.Governance
