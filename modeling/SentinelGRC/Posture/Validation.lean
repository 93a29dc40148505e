import SentinelGRC.Contracts.Accepted
import SentinelGRC.Python.Str

/-!
The validation of a posture. Its fields are checked in turn, and the first check that fails
names the field in its message.
-/

namespace SentinelGRC.Posture

open Python Json Contracts

variable {F : Type}

/-- `REQUIRED_FIELDS`. -/
def requiredFields : List Text :=
  [lit "schema_version", lit "collected_at", lit "asset_id", lit "hostname",
    lit "bitlocker_system_drive", lit "firewall_all_profiles_enabled",
    lit "defender_realtime_enabled", lit "days_since_last_update"]

/-- `ALLOWED_FIELDS`. -/
def allowedFields : List Text :=
  requiredFields ++ [lit "os", lit "os_version", lit "domain", lit "checks", lit "owner",
    lit "criticality"]

/-- A check that is made, or its message. -/
def ensure (passes : Bool) (message : Text) : Except PyError Unit :=
  if !passes then .error (.valueError message) else .ok ()

theorem ensure_eq_ok {passes : Bool} {message : Text} {u : Unit} :
    ensure passes message = .ok u ↔ passes = true := by
  cases passes <;> simp [ensure]

/-- A check of a field that need not be there. -/
def ensurePresent (payload : Fields F) (name : Text) (passes : Json F → Bool) (message : Text) :
    Except PyError Unit :=
  match field name payload with
  | none => .ok ()
  | some value => ensure (passes value) message

/-! ### Checks -/

def isNull : Json F → Bool
  | .null => true
  | _ => false

def isBoolean : Json F → Bool
  | .bool _ => true
  | _ => false

/-- An `int` that is no `bool` and not negative, or `None`. -/
def isUpdateAge : Json F → Bool
  | .null => true
  | .int n => 0 ≤ n
  | _ => false

def isCriticality : Json F → Bool
  | .str t => t ∈ criticalities
  | _ => false

variable [PyFloat F]

/-- `_validate_posture_shape`; the names of the fields are listed in a `repr`. -/
def validatePostureShape (U : UnicodeTables) (payload : Fields F) : Except PyError Unit := do
  let names (ts : List Text) : Text := ((Json.arr ((sortedTexts ts).map .str)) : Json F).reprText U
  let keys := (payload.map Prod.fst).dedup
  let missing := requiredFields.filter fun k => k ∉ keys
  ensure missing.isEmpty (lit "Missing required fields: " ++ names missing)
  let unknown := keys.filter fun k => k ∉ allowedFields
  ensure unknown.isEmpty (lit "Unknown fields: " ++ names unknown)
  ensure ((get payload (lit "schema_version")).pyEq (.str (lit "1.0")))
    (lit "Unsupported posture schema version.")

/-- `_validate_identity_fields`. -/
def validateIdentityFields (payload : Fields F) : Except PyError Unit := do
  ensure (isCanonicalText (get payload (lit "asset_id")) 128 &&
    match get payload (lit "asset_id") with
    | .str t => isIdentifier t
    | _ => false) (lit "asset_id must be a canonical identifier.")
  ensure (isCanonicalText (get payload (lit "hostname")) 255) (lit "hostname is invalid.")

/-- `_validate_collection_time`. -/
def validateCollectionTime (value : Json F) : Except PyError Unit :=
  match parseRfc3339 value (lit "posture") (lit "collected_at") with
  | .ok _ => .ok ()
  | .error _ => .error (.valueError (lit "collected_at must be an ISO-8601 timestamp."))

/-- `_validate_boolean_fields`. -/
def validateBooleanFields (payload : Fields F) : List Text → Except PyError Unit
  | [] => .ok ()
  | name :: rest => do
    ensure (isBoolean (get payload name)) (name ++ lit " must be boolean.")
    validateBooleanFields payload rest

/-- `_validate_update_age`. -/
def validateUpdateAge (value : Json F) : Except PyError Unit :=
  ensure (isUpdateAge value) (lit "days_since_last_update must be a non-negative integer or null.")

/-- `_validate_optional_text`. -/
def validateOptionalText (payload : Fields F) (name : Text) (maximum : ℕ) : Except PyError Unit :=
  ensurePresent payload name (fun value => isNull value || isCanonicalText value maximum)
    (name ++ lit " must be null or canonical text up to " ++ natText maximum ++ lit " characters.")

/-- `_validate_required_text_when_present`. -/
def validateRequiredTextWhenPresent (payload : Fields F) (name : Text) (maximum : ℕ) :
    Except PyError Unit :=
  ensurePresent payload name (fun value => isCanonicalText value maximum)
    (name ++ lit " must be canonical text up to " ++ natText maximum ++ lit " characters.")

/-- `_validate_posture_context`. -/
def validatePostureContext (payload : Fields F) : Except PyError Unit := do
  validateOptionalText payload (lit "os") 128
  validateOptionalText payload (lit "os_version") 128
  validateRequiredTextWhenPresent payload (lit "owner") 128
  ensurePresent payload (lit "domain") (fun value => isNull value || isBoolean value)
    (lit "domain must be boolean or null.")
  ensurePresent payload (lit "criticality") isCriticality
    (lit "criticality must be low, medium, high, or critical.")

/-- `_validate_posture_check_shape`. -/
def validatePostureCheckShape (check : Json F) : Except PyError (Fields F) :=
  let required := [lit "name", lit "passed", lit "value", lit "error"]
  let misshapen := .error (.valueError
    (lit "each check must contain only name, passed, value, and error."))
  match check with
  | .obj fields =>
    let keys := (fields.map Prod.fst).dedup
    if (keys.all fun k => k ∈ required) && required.all fun k => k ∈ keys then .ok fields
    else misshapen
  | _ => misshapen

/-- `_validate_posture_check_fields`. -/
def validatePostureCheckFields (check : Fields F) : Except PyError Unit := do
  ensure (isCanonicalText (get check (lit "name")) 128)
    (lit "check name must be canonical text up to 128 characters.")
  ensure (isBoolean (get check (lit "passed"))) (lit "check passed must be boolean.")
  ensure (isNull (get check (lit "error")) || isCanonicalText (get check (lit "error")) 512)
    (lit "check error must be null or canonical text up to 512 characters.")

/-- The loop of `_validate_posture_checks`. -/
def validateChecks : List (Json F) → Except PyError Unit
  | [] => .ok ()
  | check :: rest => do
    let fields ← validatePostureCheckShape check
    validatePostureCheckFields fields
    validateChecks rest

/-- `_validate_posture_checks`. -/
def validatePostureChecks (value : Json F) : Except PyError Unit :=
  let misshapen := .error (.valueError (lit "checks must be an array with at most 128 items."))
  match value with
  | .arr checks => if 128 < checks.length then misshapen else validateChecks checks
  | _ => misshapen

/-- `validate_posture`. -/
def validatePosture (U : UnicodeTables) (payload : Json F) : Except PyError Unit :=
  match payload with
  | .obj fields => do
    validatePostureShape U fields
    validateIdentityFields fields
    validateCollectionTime (get fields (lit "collected_at"))
    validateBooleanFields fields [lit "bitlocker_system_drive",
      lit "firewall_all_profiles_enabled", lit "defender_realtime_enabled"]
    validateUpdateAge (get fields (lit "days_since_last_update"))
    validatePostureContext fields
    match field (lit "checks") fields with
    | none => .ok ()
    | some checks => validatePostureChecks checks
  | _ => .error (.valueError (lit "Posture payload must be a JSON object."))

/-! ### Accepted postures -/

/-- An accepted posture has an asset identifier. -/
theorem assetId_of_validatePosture {U : UnicodeTables} {payload : Fields F} {u : Unit}
    (h : validatePosture U (.obj payload) = .ok u) :
    ∃ t, get payload (lit "asset_id") = .str t ∧ isCanonicalText (.str t : Json F) 128 = true ∧
      isIdentifier t = true := by
  obtain ⟨⟨⟩, -, h⟩ := bind_eq_ok.mp h
  obtain ⟨⟨⟩, hidentity, -⟩ := bind_eq_ok.mp h
  obtain ⟨⟨⟩, hassetId, -⟩ := bind_eq_ok.mp hidentity
  have hassetId := ensure_eq_ok.mp hassetId
  rw [Bool.and_eq_true] at hassetId
  cases hget : get payload (lit "asset_id") with
  | str t =>
    rw [hget] at hassetId
    exact ⟨t, rfl, hassetId.1, hassetId.2⟩
  | _ =>
    rw [hget] at hassetId
    cases hassetId.2

end SentinelGRC.Posture
