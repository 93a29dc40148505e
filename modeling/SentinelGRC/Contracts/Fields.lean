import SentinelGRC.Contracts.Validation
import SentinelGRC.Governance.Core
import SentinelGRC.Python.Raises

/-!
The checks that the three contracts make in the same way, with the name of the
contract in the message. None of them raises anything but a `ValueError`.
-/

namespace SentinelGRC.Contracts

open Python Json Governance

variable {F : Type}

/-- `sorted` on texts. -/
def sortedTexts (ts : List Text) : List Text := ts.insertionSort fun s t => keyLe s t = true

/-- `", ".join(names)`. -/
def joinNames (names : List Text) : Text := List.intercalate (lit ", ") names

/-- The keys of an object: no others than the allowed ones, and all required ones. -/
def checkShape (label : Text) (allowed required : List Text) (payload : Fields F) :
    Except PyError Unit :=
  let keys := (payload.map Prod.fst).dedup
  let unknown := sortedTexts (keys.filter fun k => k ∉ allowed)
  let missing := sortedTexts (required.filter fun k => k ∉ keys)
  if unknown ≠ [] then
    .error (.valueError (label ++ lit " contains unknown fields: " ++ joinNames unknown))
  else if missing ≠ [] then
    .error (.valueError (label ++ lit " missing fields: " ++ joinNames missing))
  else .ok ()

/-- `_text`. -/
def text (payload : Fields F) (name : Text) (maximum : ℕ) (label : Text) : Except PyError Text :=
  match get payload name with
  | .str t => if isCanonicalText (.str t : Json F) maximum then .ok t else .error (invalid label name)
  | _ => .error (invalid label name)

/-- An optional text. -/
def optionalText (payload : Fields F) (name : Text) (maximum : ℕ) (label : Text) :
    Except PyError (Option Text) :=
  match get payload name with
  | .null => .ok none
  | .str t =>
    if isCanonicalText (.str t : Json F) maximum then .ok (some t) else .error (invalid label name)
  | _ => .error (invalid label name)

/-- One of the `evidence_refs`. -/
def evidenceRef (label : Text) (item : Json F) : Except PyError Text :=
  match item with
  | .str t =>
    if isEvidenceReference (.str t : Json F) then .ok t
    else .error (.valueError (label ++ lit " evidence reference is not approved"))
  | _ => .error (.valueError (label ++ lit " evidence reference is not approved"))

/-- `_evidence_refs`. -/
def evidenceRefs (value : Json F) (label : Text) : Except PyError (List Text) :=
  let miscounted := .error (.valueError (label ++ lit " evidence_refs must contain 1-20 references"))
  match value with
  | .arr items =>
    if items.length < 1 ∨ 20 < items.length then miscounted
    else do
      let references ← items.mapM (evidenceRef label)
      if ¬ references.Nodup then
        .error (.valueError (label ++ lit " evidence references must be unique"))
      else .ok references
  | _ => miscounted

/-- `"...-" + sha256("|".join(parts)).hexdigest()[:16].upper()`. -/
def contractId (H : Digest) (kind : String) (parts : List Text) : Except PyError Text := do
  let identity ← encodeUtf8 (List.intercalate (lit "|") parts)
  return lit kind ++ upperHex ((H.hexdigest identity).take 16)

/-! ### Exceptions -/

theorem valueErrorsOnly_checkShape (label : Text) (allowed required : List Text)
    (payload : Fields F) : ValueErrorsOnly (checkShape label allowed required payload) := by
  unfold checkShape
  refine valueErrorsOnly_ite.mpr fun _ => ?_
  exact valueErrorsOnly_ite.mpr fun _ => raises_ok ()

theorem valueErrorsOnly_text (payload : Fields F) (name : Text) (maximum : ℕ) (label : Text) :
    ValueErrorsOnly (text payload name maximum label) := by
  unfold text
  split
  · split_ifs
    · exact raises_ok _
    · exact valueErrorsOnly_valueError _
  · exact valueErrorsOnly_valueError _

theorem valueErrorsOnly_optionalText (payload : Fields F) (name : Text) (maximum : ℕ)
    (label : Text) : ValueErrorsOnly (optionalText payload name maximum label) := by
  unfold optionalText
  split
  · exact raises_ok _
  · split_ifs
    · exact raises_ok _
    · exact valueErrorsOnly_valueError _
  · exact valueErrorsOnly_valueError _

theorem valueErrorsOnly_evidenceRef (label : Text) (item : Json F) :
    ValueErrorsOnly (evidenceRef label item) := by
  unfold evidenceRef
  split
  · split_ifs
    · exact raises_ok _
    · exact valueErrorsOnly_valueError _
  · exact valueErrorsOnly_valueError _

theorem valueErrorsOnly_evidenceRefs (value : Json F) (label : Text) :
    ValueErrorsOnly (evidenceRefs value label) := by
  unfold evidenceRefs
  split
  · refine valueErrorsOnly_ite.mpr fun _ => ?_
    refine (Raises.mapM (valueErrorsOnly_evidenceRef label) _).bind fun references _ => ?_
    exact valueErrorsOnly_ite.mpr fun _ => raises_ok _
  · exact valueErrorsOnly_valueError _

theorem valueErrorsOnly_contractId (H : Digest) (kind : String) (parts : List Text) :
    ValueErrorsOnly (contractId H kind parts) :=
  ((raises_encodeUtf8 _).mono fun e he => by rw [he]; trivial).bind fun _ _ => raises_ok _

theorem valueErrorsOnly_parseRfc3339 (value : Json F) (label name : Text) :
    ValueErrorsOnly (parseRfc3339 value label name) := by
  unfold parseRfc3339
  split
  · split
    · exact raises_ok _
    · exact valueErrorsOnly_valueError _
  · exact valueErrorsOnly_valueError _

/-- A conversion to UTC raises a `ValueError` at most, where it is defined. -/
theorem valueErrorsOnly_astimezone (d : AwareDatetime) :
    ValueErrorsOnly d.astimezone ↔ d.InRange := by
  rcases d.astimezone_cases with ⟨hrange, u, hu⟩ | ⟨hrange, hoverflow⟩
  · rw [hu]
    exact iff_of_true (raises_ok u) hrange
  · rw [hoverflow]
    exact iff_of_false (fun h => raises_error.mp h) hrange

end SentinelGRC.Contracts
