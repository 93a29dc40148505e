import Mathlib.Data.List.Dedup
import SentinelGRC.Governance.Schema
import SentinelGRC.Python.Base64
import SentinelGRC.Python.Join
import SentinelGRC.Python.Str

/-!
The verification of access tokens. Whatever a check raises, the caller is told one thing, so
all that matters is which tokens get through. The signature check and the reading of JSON are
parameters; `parse` gives the members of an object as they are written, the repeated ones
included, and the hook that refuses those is part of the model.
-/

namespace SentinelGRC.Identity

open Python Json Governance

/-- Floats with what `int` makes of a finite one. -/
class IntegerPart (F : Type) extends PyFloat F where
  integerPart : F → ℤ

variable {F K : Type}

section Checks

variable [IntegerPart F]

/-! ### Numbers -/

/-- `int(value)` of a number. -/
def intOfNumber : ℤ ⊕ PyNum F → Except PyError ℤ
  | .inl n => .ok n
  | .inr (.finite x) => .ok (IntegerPart.integerPart x)
  | .inr .nan => .error (.valueError (lit "cannot convert float NaN to integer"))
  | .inr (.infinity _) => .error .overflowError

def intTypeError (type : String) : PyError :=
  .typeError (lit "int() argument must be a string, a bytes-like object or a real number, not '" ++
    lit type ++ lit "'")

/-- `int(value)`. -/
def pyIntOf (U : UnicodeTables) : Json F → Except PyError ℤ
  | .bool b => .ok (if b then 1 else 0)
  | .int n => .ok n
  | .float x => intOfNumber (.inr x)
  | .str s =>
    match pyInt s with
    | some n => .ok n
    | none => .error (.valueError (lit "invalid literal for int() with base 10: " ++ U.repr s))
  | .null => .error (intTypeError "NoneType")
  | .arr _ => .error (intTypeError "list")
  | .obj _ => .error (intTypeError "dict")

/-- A number that is not a `bool`. -/
def realNumber? : Json F → Option (ℤ ⊕ PyNum F)
  | .int n => some (.inl n)
  | .float x => some (.inr x)
  | _ => none

/-- `_numeric_date`. -/
def numericDate (claims : Fields F) (name : String) : Except PyError ℤ :=
  match realNumber? (get claims (lit name)) with
  | some value => intOfNumber value
  | none => .error (.valueError (lit "invalid " ++ lit name ++ lit " claim"))

/-! ### Claims -/

/-- `ROLES`. -/
def roles : List Role := [.admin, .analyst, .riskOwner, .approver, .ciso, .riskCommittee]

/-- The role of a name in `ROLES`. -/
def roleNamed (name : Text) : Option Role := roles.find? fun role => role.text = name

/-- `ActorContext(actor_id, role, auth_method)`. -/
def actorContext (actorId role authMethod : Text) : Except PyError ActorContext :=
  if hid : blank actorId = false then
    match roleNamed role with
    | none => .error (.valueError (lit "unsupported role: " ++ role))
    | some role =>
      if hmethod : blank authMethod = false then .ok ⟨actorId, role, authMethod, hid, hmethod⟩
      else .error (.valueError (lit "auth_method is required"))
  else .error (.valueError (lit "actor_id is required"))

/-- A `dict` from names of roles or groups to roles. -/
abbrev RoleMap := List (Text × Text)

/-- The audiences that a token names. -/
def audiences : Json F → List (Json F)
  | .arr xs => xs
  | tokenAudience => [tokenAudience]

/-- `_validate_trust_claims`. -/
def validateTrustClaims (claims : Fields F) (issuer audience tenantId : Text) : Except PyError Unit :=
  if ¬ (get claims (lit "iss")).pyEq (.str issuer) then
    .error (.permissionError (lit "invalid OIDC issuer"))
  else if ¬ (audiences (get claims (lit "aud"))).any fun x => x.pyEq (.str audience) then
    .error (.permissionError (lit "invalid OIDC audience"))
  else if ¬ (get claims (lit "tid")).pyEq (.str tenantId) then
    .error (.permissionError (lit "invalid OIDC tenant"))
  else .ok ()

/-- `_validate_token_lifetime`. -/
def validateTokenLifetime (U : UnicodeTables) (claims : Fields F) (current clockSkewSeconds : ℤ) :
    Except PyError Unit := do
  let nbf ← pyIntOf U ((field (lit "nbf") claims).getD (.int 0))
  if current + clockSkewSeconds < nbf then .error (.permissionError (lit "OIDC token is not active"))
  else if ¬ (get claims (lit "sub")).truthy then
    .error (.permissionError (lit "expired or incomplete OIDC claims"))
  else
    let exp ← pyIntOf U ((field (lit "exp") claims).getD (.int 0))
    if exp ≤ current - clockSkewSeconds then
      .error (.permissionError (lit "expired or incomplete OIDC claims"))
    else .ok ()

/-- `_authorization_values`. -/
def authorizationValues (claims : Fields F) (configuredGroups : RoleMap) :
    Except PyError (List (Json F) × List (Json F)) :=
  match (get claims (lit "roles")).orElse (.arr []), (get claims (lit "groups")).orElse (.arr []) with
  | .arr roles, .arr groups =>
    if ¬ configuredGroups.isEmpty ∧ ((get claims (lit "hasgroups")).truthy ∨
        (field (lit "_claim_names") claims).isSome) then
      .error (.permissionError (lit "OIDC group overage is not supported"))
    else .ok (roles, groups)
  | _, _ => .error (.permissionError (lit "invalid OIDC authorization claims"))

/-- The roles that a map gives to the texts among the values. -/
def mappedValues (mapping : RoleMap) (values : List (Json F)) : List Text :=
  values.filterMap fun
    | .str value => mapping.lookup value
    | _ => none

/-- `_mapped_role`. -/
def mappedRole (roles groups : List (Json F)) (configuredRoles configuredGroups : RoleMap) :
    Except PyError Text :=
  match (mappedValues configuredRoles roles ++ mappedValues configuredGroups groups).dedup with
  | [mapped] =>
    if (roleNamed mapped).isNone then .error (.permissionError (lit "OIDC role mapping is invalid"))
    else .ok mapped
  | _ => .error (.permissionError (lit "OIDC identity must map to exactly one Sentinel role"))

/-- The part of `OidcVerifierConfig` that the verification reads. -/
structure OidcVerifierConfig where
  issuer : Text
  audience : Text
  tenantId : Text
  roleMap : RoleMap
  groupRoleMap : RoleMap
  clockSkewSeconds : ℤ

/-- `actor_from_claims`. -/
def actorFromClaims (U : UnicodeTables) (claims : Fields F) (config : OidcVerifierConfig) (now : ℤ) :
    Except PyError ActorContext := do
  validateTrustClaims claims config.issuer config.audience config.tenantId
  validateTokenLifetime U claims now config.clockSkewSeconds
  let (roles, groups) ← authorizationValues claims config.groupRoleMap
  let mapped ← mappedRole roles groups config.roleMap config.groupRoleMap
  let sub ← (get claims (lit "sub")).pyStr U
  actorContext sub mapped (lit "oidc")

/-! ### Signatures -/

/-- `SIGNATURE_ALGORITHMS`. -/
def signatureAlgorithms : List Text := [lit "RS256", lit "ML-DSA-44", lit "ML-DSA-65", lit "ML-DSA-87"]

/-- The `signature_algorithms` of the default policy. -/
def enabledAlgorithms : List Text := [lit "RS256"]

/-- `CryptoPolicy.require_signature_algorithm`. -/
def requireSignatureAlgorithm (name : Text) : Except PyError Unit :=
  if name ∉ signatureAlgorithms then .error (.valueError (lit "unknown signature algorithm"))
  else if name ∉ enabledAlgorithms then
    .error (.valueError (lit "signature algorithm is disabled by policy"))
  else .ok ()

/-- `str.encode("ascii")`. -/
def encodeAscii (t : Text) : Except PyError Bytes :=
  if ∀ c ∈ t, c.val < 0x80 then .ok (t.map fun c => UInt8.ofNat c.val) else .error .unicodeEncodeError

/-- The verifier with what it calls: the key client, whose keys are RSA keys, the PKCS #1
check of a signature over a message, `json.loads` without its hook, and the clock. -/
structure EntraTokenVerifier (F K : Type) where
  config : OidcVerifierConfig
  getSigningKey : Text → Except PyError K
  verifies : K → Bytes → Bytes → Except PyError Unit
  parse : Text → Except PyError (Json F)
  tables : UnicodeTables
  clock : ℤ ⊕ PyNum F

/-- `RS256SignatureVerifier.verify`. -/
def EntraTokenVerifier.verifySignature (v : EntraTokenVerifier F K) (algorithm : Text) (key : K)
    (signature message : Bytes) : Except PyError Unit := do
  requireSignatureAlgorithm algorithm
  if algorithm ≠ lit "RS256" then
    .error (.valueError (lit "OIDC signature verifier only accepts RS256 RSA keys"))
  else v.verifies key signature message

/-! ### Tokens -/

def maxTokenBytes : ℕ := 16384

/-- `_b64url`. -/
def b64url (value : Text) : Except PyError Bytes :=
  if value = [] ∨ ¬ value.all isBase64url then .error (.valueError (lit "invalid base64url value"))
  else urlsafeB64decode value

/-- `_json_object`. -/
def jsonObject (parse : Text → Except PyError (Json F)) (raw : Bytes) : Except PyError (Fields F) := do
  let text ← decodeUtf8 raw
  let value ← parse text
  if ¬ Distinct value then .error (.valueError (lit "duplicate JSON member"))
  else
    match value with
    | .obj members => .ok members
    | _ => .error (.valueError (lit "JSON value must be an object"))

/-- The algorithm and the key id of a header. -/
def headerFields (header : Fields F) : Except PyError (Text × Text) :=
  match get header (lit "alg"), get header (lit "kid") with
  | .str alg, .str kid => .ok (alg, kid)
  | _, _ => .error (.valueError (lit "invalid token header"))

def requiredClaims : List Text :=
  [lit "aud", lit "exp", lit "iat", lit "iss", lit "nbf", lit "sub", lit "tid"]

namespace EntraTokenVerifier

/-- What `verify` does once it has the claims. -/
def checkClaims (v : EntraTokenVerifier F K) (claims : Fields F) : Except PyError ActorContext :=
  if ¬ ∀ name ∈ requiredClaims, (field name claims).isSome then
    .error (.valueError (lit "incomplete token claims"))
  else do
    let now ← intOfNumber v.clock
    let iat ← numericDate claims "iat"
    if now + v.config.clockSkewSeconds < iat then .error (.valueError (lit "future token"))
    else
      let nbf ← numericDate claims "nbf"
      if now + v.config.clockSkewSeconds < nbf then .error (.valueError (lit "inactive token"))
      else
        let exp ← numericDate claims "exp"
        if exp ≤ now - v.config.clockSkewSeconds then .error (.valueError (lit "expired token"))
        else actorFromClaims v.tables claims v.config now

/-- The `try` block of `verify`. -/
def checkToken (v : EntraTokenVerifier F K) (token : Text) : Except PyError ActorContext :=
  match token.splitOn (ofChar '.') with
  | [first, second, third] => do
    let header ← jsonObject v.parse (← b64url first)
    let (alg, kid) ← headerFields header
    requireSignatureAlgorithm alg
    let key ← v.getSigningKey kid
    let signature ← b64url third
    let message ← encodeAscii (first ++ lit "." ++ second)
    v.verifySignature alg key signature message
    let claims ← jsonObject v.parse (← b64url second)
    v.checkClaims claims
  | _ => .error (.valueError (lit "invalid token structure"))

/-- `AuthenticationError`. -/
structure AuthenticationError where
  message : Text

/-- `verify`. -/
def verify (v : EntraTokenVerifier F K) (token : Text) : Except AuthenticationError ActorContext :=
  if ¬ (0 < token.length ∧ token.length ≤ maxTokenBytes) then .error ⟨lit "invalid bearer token"⟩
  else
    match v.checkToken token with
    | .error _ => .error ⟨lit "invalid bearer token"⟩
    | .ok actor => .ok actor

end EntraTokenVerifier

/-! ### Acceptance -/

/-- A part of the token is a JSON object with these members, none repeated at any depth. -/
def HoldsObject (v : EntraTokenVerifier F K) (part : Text) (members : Fields F) : Prop :=
  ∃ bytes text, CarriesBytes part bytes ∧ decodeUtf8 bytes = .ok text ∧
    v.parse text = .ok (.obj members) ∧ Distinct (.obj members)

/-- The integer part of a finite number. -/
def WholePart : ℤ ⊕ PyNum F → ℤ → Prop
  | .inl m, n => m = n
  | .inr (.finite x), n => IntegerPart.integerPart x = n
  | .inr _, _ => False

/-- A claim is a finite number, not a `bool`, with this integer part. -/
def Dated (claims : Fields F) (name : String) (n : ℤ) : Prop :=
  ∃ value, realNumber? (get claims (lit name)) = some value ∧ WholePart value n

/-- A claim is a list, or falsy and then stands for the empty one. -/
def Listed (value : Json F) (items : List (Json F)) : Prop :=
  value = .arr items ∨ value.truthy = false ∧ items = []

/-- A map gives the role to a text among the values. -/
def Grants (mapping : RoleMap) (values : List (Json F)) (role : Text) : Prop :=
  ∃ value, .str value ∈ values ∧ mapping.lookup value = some role

/-- The claims are those of the actor, at this instant. -/
structure Entitles (U : UnicodeTables) (config : OidcVerifierConfig) (claims : Fields F) (now : ℤ)
    (actor : ActorContext) : Prop where
  required : ∀ name ∈ requiredClaims, (field name claims).isSome
  issuer : get claims (lit "iss") = .str config.issuer
  tenant : get claims (lit "tid") = .str config.tenantId
  audience : get claims (lit "aud") = .str config.audience ∨
    ∃ audiences, get claims (lit "aud") = .arr audiences ∧ .str config.audience ∈ audiences
  issued : ∃ iat, Dated claims "iat" iat ∧ iat ≤ now + config.clockSkewSeconds
  active : ∃ nbf, Dated claims "nbf" nbf ∧ nbf ≤ now + config.clockSkewSeconds
  unexpired : ∃ exp, Dated claims "exp" exp ∧ now - config.clockSkewSeconds < exp
  subject : (get claims (lit "sub")).truthy = true ∧
    (get claims (lit "sub")).pyStr U = .ok actor.actorId ∧ blank actor.actorId = false
  overage : config.groupRoleMap = [] ∨
    (get claims (lit "hasgroups")).truthy = false ∧ field (lit "_claim_names") claims = none
  role : ∃ roles groups, Listed (get claims (lit "roles")) roles ∧
    Listed (get claims (lit "groups")) groups ∧ ∀ role,
      (Grants config.roleMap roles role ∨ Grants config.groupRoleMap groups role) ↔
        role = actor.role.text
  method : actor.authMethod = lit "oidc"

/-- The token is one that the verifier is to accept for the actor. -/
structure Acceptable (v : EntraTokenVerifier F K) (token : Text) (actor : ActorContext) : Prop where
  short : token.length ≤ maxTokenBytes
  parts : ∃ first second third header claims kid key signature now,
    token.splitOn (ofChar '.') = [first, second, third] ∧
    HoldsObject v first header ∧ HoldsObject v second claims ∧ CarriesBytes third signature ∧
    get header (lit "alg") = .str (lit "RS256") ∧ get header (lit "kid") = .str kid ∧
    v.getSigningKey kid = .ok key ∧
    v.verifies key signature ((first ++ lit "." ++ second).map fun c => UInt8.ofNat c.val) = .ok () ∧
    WholePart v.clock now ∧ Entitles v.tables v.config claims now actor

end Checks

/-! ### Each check -/

variable {v : EntraTokenVerifier F K} {claims header : Fields F} {U : UnicodeTables} {t : Text}

theorem b64url_eq_ok {bytes : Bytes} : b64url t = .ok bytes ↔ CarriesBytes t bytes := by
  rw [b64url, ite_error_eq_ok, urlsafeB64decode, ite_error_eq_ok, not_or, not_not, List.all_eq_true,
    Except.ok.injEq]
  constructor
  · rintro ⟨⟨hne, hall⟩, hlength, hbytes⟩
    exact ⟨hne, hall, hlength, hbytes⟩
  · rintro ⟨hne, hall, hlength, hbytes⟩
    exact ⟨⟨hne, hall⟩, hlength, hbytes⟩

theorem jsonObject_eq_ok {parse : Text → Except PyError (Json F)} {raw : Bytes} :
    jsonObject parse raw = .ok claims ↔ ∃ text, decodeUtf8 raw = .ok text ∧
      parse text = .ok (.obj claims) ∧ Distinct (.obj claims) := by
  simp only [jsonObject, bind_eq_ok, ite_error_eq_ok, not_not]
  constructor
  · rintro ⟨text, htext, value, hvalue, hdistinct, hmembers⟩
    cases value with
    | obj members =>
      obtain rfl := Except.ok.inj hmembers
      exact ⟨text, htext, hvalue, hdistinct⟩
    | _ => cases hmembers
  · rintro ⟨text, htext, hvalue, hdistinct⟩
    exact ⟨text, htext, _, hvalue, hdistinct, rfl⟩

theorem holdsObject_iff {part : Text} : HoldsObject v part claims ↔
    ∃ bytes, b64url part = .ok bytes ∧ jsonObject v.parse bytes = .ok claims := by
  simp only [HoldsObject, b64url_eq_ok, jsonObject_eq_ok]
  constructor
  · rintro ⟨bytes, text, hbytes, hrest⟩
    exact ⟨bytes, hbytes, text, hrest⟩
  · rintro ⟨bytes, hbytes, text, hrest⟩
    exact ⟨bytes, text, hbytes, hrest⟩

theorem headerFields_eq_ok {alg kid : Text} : headerFields header = .ok (alg, kid) ↔
    get header (lit "alg") = .str alg ∧ get header (lit "kid") = .str kid := by
  unfold headerFields
  split
  · rename_i alg' kid' halg hkid
    simp [halg, hkid]
  · rename_i hneither
    constructor
    · intro h
      cases h
    · rintro ⟨halg, hkid⟩
      exact absurd hkid (hneither alg kid halg)

theorem requireSignatureAlgorithm_eq_ok {name : Text} {u : Unit} :
    requireSignatureAlgorithm name = .ok u ↔ name = lit "RS256" := by
  simp only [requireSignatureAlgorithm, ite_error_eq_ok, not_not, enabledAlgorithms,
    List.mem_singleton, and_true]
  constructor
  · rintro ⟨-, hname⟩
    exact hname
  · rintro rfl
    exact ⟨List.mem_cons_self, rfl⟩

theorem verifySignature_eq_ok {alg : Text} {key : K} {signature message : Bytes} {u : Unit} :
    v.verifySignature alg key signature message = .ok u ↔
      alg = lit "RS256" ∧ v.verifies key signature message = .ok u := by
  simp only [EntraTokenVerifier.verifySignature, bind_eq_ok, requireSignatureAlgorithm_eq_ok,
    ite_error_eq_ok, ne_eq, not_not, exists_const]
  constructor
  · rintro ⟨-, h⟩
    exact h
  · rintro h
    exact ⟨h.1, h⟩

/-- A part that carries bytes is ASCII. -/
theorem isAscii_of_carriesBytes {bytes : Bytes} (h : CarriesBytes t bytes) :
    ∀ c ∈ t, c.val < 0x80 := by
  intro c hc
  have hclass := h.alphabet c hc
  by_contra hlarge
  have hnone : sextet c = none := by
    unfold sextet
    rw [if_neg (by omega), if_neg (by omega), if_neg (by omega), if_neg, if_neg]
    · rintro rfl
      exact hlarge (by decide)
    · rintro rfl
      exact hlarge (by decide)
  rw [isBase64url, hnone] at hclass
  cases hclass

theorem encodeAscii_eq_ok {bytes : Bytes} : encodeAscii t = .ok bytes ↔
    (∀ c ∈ t, c.val < 0x80) ∧ t.map (fun c => UInt8.ofNat c.val) = bytes := by
  unfold encodeAscii
  split_ifs with h
  · rw [Except.ok.injEq]
    exact ⟨fun hbytes => ⟨h, hbytes⟩, And.right⟩
  · constructor
    · intro hbytes
      cases hbytes
    · intro hbytes
      exact absurd hbytes.1 h

/-- What is signed is the text between the signature and the start of the token. -/
theorem encodeAscii_signed {first second : Text} {header claims : Fields F}
    (hheader : HoldsObject v first header) (hclaims : HoldsObject v second claims) :
    encodeAscii (first ++ lit "." ++ second) =
      .ok ((first ++ lit "." ++ second).map fun c => UInt8.ofNat c.val) := by
  obtain ⟨_, _, hfirst, -⟩ := hheader
  obtain ⟨_, _, hsecond, -⟩ := hclaims
  refine encodeAscii_eq_ok.mpr ⟨?_, rfl⟩
  intro c hc
  rcases List.mem_append.mp hc with hc | hc
  · rcases List.mem_append.mp hc with hc | hc
    · exact isAscii_of_carriesBytes hfirst c hc
    · obtain rfl := List.mem_singleton.mp hc
      decide
  · exact isAscii_of_carriesBytes hsecond c hc

theorem mem_mappedValues {mapping : RoleMap} {values : List (Json F)} {role : Text} :
    role ∈ mappedValues mapping values ↔ Grants mapping values role := by
  simp only [mappedValues, List.mem_filterMap, Grants]
  constructor
  · rintro ⟨value, hmem, hrole⟩
    cases value with
    | str value => exact ⟨value, hmem, hrole⟩
    | _ => cases hrole
  · rintro ⟨value, hmem, hrole⟩
    exact ⟨.str value, hmem, hrole⟩

/-- What is left without repetitions is one element. -/
theorem dedup_eq_singleton {α : Type} [DecidableEq α] {l : List α} {a : α} :
    l.dedup = [a] ↔ ∀ b, b ∈ l ↔ b = a := by
  constructor
  · intro h b
    rw [← List.mem_dedup, h, List.mem_singleton]
  · intro h
    apply List.perm_singleton.mp
    rw [List.perm_ext_iff_of_nodup (List.nodup_dedup l) (List.nodup_singleton a)]
    intro b
    rw [List.mem_dedup, List.mem_singleton, h]

theorem roleNamed_text (role : Role) : roleNamed role.text = some role := by
  cases role <;> decide

theorem roleNamed_eq_some {name : Text} {role : Role} : roleNamed name = some role ↔ name = role.text := by
  constructor
  · intro h
    have hfound := List.find?_some h
    exact (of_decide_eq_true hfound).symm
  · rintro rfl
    exact roleNamed_text role

theorem mappedRole_eq_ok {roles groups : List (Json F)} {configuredRoles configuredGroups : RoleMap}
    {mapped : Text} : mappedRole roles groups configuredRoles configuredGroups = .ok mapped ↔
      (∃ role, roleNamed mapped = some role) ∧ ∀ role,
        (Grants configuredRoles roles role ∨ Grants configuredGroups groups role) ↔ role = mapped := by
  simp only [← mem_mappedValues, ← List.mem_append, ← dedup_eq_singleton]
  unfold mappedRole
  split
  · rename_i mapped' hmapped
    rw [hmapped, ite_error_eq_ok, Option.isNone_iff_eq_none, ← ne_eq, Option.ne_none_iff_exists']
    simp only [Except.ok.injEq, List.cons.injEq, and_true]
    constructor
    · rintro ⟨hrole, rfl⟩
      exact ⟨hrole, rfl⟩
    · rintro ⟨hrole, rfl⟩
      exact ⟨hrole, rfl⟩
  · rename_i hneither
    constructor
    · intro h
      cases h
    · rintro ⟨-, hmapped⟩
      exact absurd hmapped (hneither mapped)

theorem actorContext_eq_ok {actorId role : Text} {actor : ActorContext} :
    actorContext actorId role (lit "oidc") = .ok actor ↔
      blank actorId = false ∧ role = actor.role.text ∧ actor.actorId = actorId ∧
        actor.authMethod = lit "oidc" := by
  have hmethod : blank (lit "oidc") = false := by decide
  unfold actorContext
  constructor
  · intro h
    split_ifs at h with hid
    cases hrole : roleNamed role with
    | none =>
      rw [hrole] at h
      cases h
    | some found =>
      rw [hrole] at h
      simp only at h
      obtain rfl := Except.ok.inj h
      exact ⟨hid, roleNamed_eq_some.mp hrole, rfl, rfl⟩
  · obtain ⟨id, found, method, hid, hm⟩ := actor
    rintro ⟨hactor, rfl, rfl, rfl⟩
    simp only [dif_pos hactor, roleNamed_text, dif_pos hmethod]

section Checks

variable [IntegerPart F]

theorem intOfNumber_eq_ok {value : ℤ ⊕ PyNum F} {n : ℤ} :
    intOfNumber value = .ok n ↔ WholePart value n := by
  rcases value with m | (x | _ | negative) <;> simp [intOfNumber, WholePart]

theorem numericDate_eq_ok {name : String} {n : ℤ} :
    numericDate claims name = .ok n ↔ Dated claims name n := by
  unfold numericDate Dated
  cases hvalue : realNumber? (get claims (lit name)) with
  | none => simp
  | some value => simp [intOfNumber_eq_ok]

theorem Dated.unique {name : String} {m n : ℤ} (h : Dated claims name m) (h' : Dated claims name n) :
    m = n :=
  Except.ok.inj ((numericDate_eq_ok.mpr h).symm.trans (numericDate_eq_ok.mpr h'))

/-- The second reading of a date agrees with the first. -/
theorem Dated.pyIntOf {name : String} {n : ℤ} (h : Dated claims name n) :
    pyIntOf U ((field (lit name) claims).getD (.int 0)) = .ok n := by
  obtain ⟨value, hvalue, hn⟩ := h
  unfold Json.get at hvalue
  cases hfield : field (lit name) claims with
  | none =>
    rw [hfield] at hvalue
    cases hvalue
  | some x =>
    rw [hfield] at hvalue
    simp only [Option.getD_some] at hvalue ⊢
    cases x <;> simp only [realNumber?, Option.some.injEq, reduceCtorEq] at hvalue
    all_goals subst hvalue; exact intOfNumber_eq_ok.mpr hn

theorem any_pyEq_str {xs : List (Json F)} :
    (xs.any fun x => x.pyEq (.str t)) = true ↔ Json.str t ∈ xs := by
  simp [List.any_eq_true, pyEq_str]

theorem validateTrustClaims_eq_ok {issuer audience tenantId : Text} {u : Unit} :
    validateTrustClaims claims issuer audience tenantId = .ok u ↔
      get claims (lit "iss") = .str issuer ∧
      (get claims (lit "aud") = .str audience ∨
        ∃ audiences, get claims (lit "aud") = .arr audiences ∧ .str audience ∈ audiences) ∧
      get claims (lit "tid") = .str tenantId := by
  have haudiences : ∀ value : Json F, .str audience ∈ audiences value ↔
      value = .str audience ∨ ∃ xs, value = .arr xs ∧ .str audience ∈ xs := by
    intro value
    cases value <;> simp [audiences, eq_comm]
  simp only [validateTrustClaims, ite_error_eq_ok, not_not, pyEq_str, any_pyEq_str, haudiences,
    and_true]

theorem validateTokenLifetime_eq_ok {current skew nbf exp : ℤ} {u : Unit}
    (hnbf : Dated claims "nbf" nbf) (hexp : Dated claims "exp" exp) :
    validateTokenLifetime U claims current skew = .ok u ↔
      nbf ≤ current + skew ∧ (get claims (lit "sub")).truthy = true ∧ current - skew < exp := by
  simp only [validateTokenLifetime, hnbf.pyIntOf, hexp.pyIntOf, bind_eq_ok, ite_error_eq_ok,
    Except.ok.injEq, exists_eq_left', not_lt, not_le, not_not, and_true]

theorem orElse_eq_arr {value : Json F} {items : List (Json F)} :
    value.orElse (.arr []) = .arr items ↔ Listed value items := by
  unfold orElse Listed
  split_ifs with h
  · simp [h]
  · rw [Bool.not_eq_true] at h
    constructor
    · intro hitems
      cases hitems
      exact .inr ⟨h, rfl⟩
    · rintro (rfl | ⟨-, rfl⟩)
      · cases items with
        | nil => rfl
        | cons x items => cases h
      · rfl

theorem authorizationValues_eq_ok {configuredGroups : RoleMap} {roles groups : List (Json F)} :
    authorizationValues claims configuredGroups = .ok (roles, groups) ↔
      Listed (get claims (lit "roles")) roles ∧ Listed (get claims (lit "groups")) groups ∧
      (configuredGroups = [] ∨
        (get claims (lit "hasgroups")).truthy = false ∧ field (lit "_claim_names") claims = none) := by
  rw [← orElse_eq_arr, ← orElse_eq_arr]
  unfold authorizationValues
  split
  · rename_i roles' groups' hroles hgroups
    rw [hroles, hgroups, ite_error_eq_ok, not_and_or, not_not, not_or, List.isEmpty_iff,
      Bool.not_eq_true, Bool.not_eq_true, Option.isSome_eq_false_iff, Option.isNone_iff_eq_none]
    simp only [Except.ok.injEq, Prod.mk.injEq, Json.arr.injEq]
    constructor
    · rintro ⟨hoverage, hr, hg⟩
      exact ⟨hr, hg, hoverage⟩
    · rintro ⟨hr, hg, hoverage⟩
      exact ⟨hoverage, hr, hg⟩
  · rename_i hneither
    constructor
    · intro h
      cases h
    · rintro ⟨hroles, hgroups, -⟩
      exact absurd hgroups (hneither _ _ hroles)

/-! ### The token -/

theorem actorFromClaims_eq_ok {config : OidcVerifierConfig} {now nbf exp : ℤ} {actor : ActorContext}
    (hnbf : Dated claims "nbf" nbf) (hexp : Dated claims "exp" exp)
    (hactive : nbf ≤ now + config.clockSkewSeconds) (hunexpired : now - config.clockSkewSeconds < exp)
    (hrequired : ∀ name ∈ requiredClaims, (field name claims).isSome = true)
    (hissued : ∃ iat, Dated claims "iat" iat ∧ iat ≤ now + config.clockSkewSeconds) :
    actorFromClaims U claims config now = .ok actor ↔ Entitles U config claims now actor := by
  simp only [actorFromClaims, bind_eq_ok, validateTrustClaims_eq_ok,
    validateTokenLifetime_eq_ok hnbf hexp, Prod.exists, authorizationValues_eq_ok, mappedRole_eq_ok,
    actorContext_eq_ok, exists_const]
  constructor
  · rintro ⟨⟨hissuer, haudience, htenant⟩, ⟨-, hsub, -⟩, roles, groups, ⟨hroles, hgroups, hoverage⟩,
      mapped, ⟨-, hgrants⟩, sub, hstr, hid, rfl, rfl, hmethod⟩
    exact ⟨hrequired, hissuer, htenant, haudience, hissued, ⟨nbf, hnbf, hactive⟩,
      ⟨exp, hexp, hunexpired⟩, ⟨hsub, hstr, hid⟩, hoverage, ⟨roles, groups, hroles, hgroups, hgrants⟩,
      hmethod⟩
  · intro h
    obtain ⟨roles, groups, hroles, hgroups, hgrants⟩ := h.role
    exact ⟨⟨h.issuer, h.audience, h.tenant⟩, ⟨hactive, h.subject.1, hunexpired⟩, roles, groups,
      ⟨hroles, hgroups, h.overage⟩, actor.role.text, ⟨⟨actor.role, roleNamed_text _⟩, hgrants⟩,
      actor.actorId, h.subject.2.1, h.subject.2.2, rfl, rfl, h.method⟩

theorem checkClaims_eq_ok {actor : ActorContext} : v.checkClaims claims = .ok actor ↔
    ∃ now, WholePart v.clock now ∧ Entitles v.tables v.config claims now actor := by
  simp only [EntraTokenVerifier.checkClaims, ite_error_eq_ok, bind_eq_ok, not_not, not_lt, not_le,
    intOfNumber_eq_ok, numericDate_eq_ok]
  constructor
  · rintro ⟨hrequired, now, hnow, iat, hiat, hissued, nbf, hnbf, hactive, exp, hexp, hunexpired, h⟩
    exact ⟨now, hnow, (actorFromClaims_eq_ok hnbf hexp hactive hunexpired hrequired
      ⟨iat, hiat, hissued⟩).mp h⟩
  · rintro ⟨now, hnow, h⟩
    obtain ⟨iat, hiat, hissued⟩ := h.issued
    obtain ⟨nbf, hnbf, hactive⟩ := h.active
    obtain ⟨exp, hexp, hunexpired⟩ := h.unexpired
    exact ⟨h.required, now, hnow, iat, hiat, hissued, nbf, hnbf, hactive, exp, hexp, hunexpired,
      (actorFromClaims_eq_ok hnbf hexp hactive hunexpired h.required ⟨iat, hiat, hissued⟩).mpr h⟩

theorem checkToken_eq_ok {token : Text} {actor : ActorContext} : v.checkToken token = .ok actor ↔
    ∃ first second third header claims kid key signature now,
      token.splitOn (ofChar '.') = [first, second, third] ∧
      HoldsObject v first header ∧ HoldsObject v second claims ∧ CarriesBytes third signature ∧
      get header (lit "alg") = .str (lit "RS256") ∧ get header (lit "kid") = .str kid ∧
      v.getSigningKey kid = .ok key ∧
      v.verifies key signature ((first ++ lit "." ++ second).map fun c => UInt8.ofNat c.val) = .ok () ∧
      WholePart v.clock now ∧ Entitles v.tables v.config claims now actor := by
  unfold EntraTokenVerifier.checkToken
  constructor
  · intro h
    split at h
    · rename_i first second third hparts
      simp only [bind_eq_ok, Prod.exists, headerFields_eq_ok, requireSignatureAlgorithm_eq_ok,
        b64url_eq_ok, verifySignature_eq_ok, checkClaims_eq_ok, exists_const] at h
      obtain ⟨raw, hraw, header, hheader, alg, kid, ⟨halg, hkid⟩, rfl, key, hkey, signature, hsignature,
        message, hmessage, _, ⟨-, hverifies⟩, payload, hpayload, claims, hclaims, now, hnow, hentitles⟩ := h
      refine ⟨first, second, third, header, claims, kid, key, signature, now, hparts,
        holdsObject_iff.mpr ⟨raw, b64url_eq_ok.mpr hraw, hheader⟩,
        holdsObject_iff.mpr ⟨payload, b64url_eq_ok.mpr hpayload, hclaims⟩, hsignature, halg, hkid, hkey,
        ?_, hnow, hentitles⟩
      rw [(encodeAscii_eq_ok.mp hmessage).2]
      exact hverifies
    · cases h
  · rintro ⟨first, second, third, header, claims, kid, key, signature, now, hparts, hheader, hclaims,
      hsignature, halg, hkid, hkey, hverifies, hnow, hentitles⟩
    obtain ⟨raw, hraw, hread⟩ := holdsObject_iff.mp hheader
    obtain ⟨payload, hpayload, hreads⟩ := holdsObject_iff.mp hclaims
    rw [hparts]
    simp only [bind_eq_ok, Prod.exists]
    exact ⟨raw, hraw, header, hread, lit "RS256", kid, headerFields_eq_ok.mpr ⟨halg, hkid⟩, (),
      requireSignatureAlgorithm_eq_ok.mpr rfl, key, hkey, signature, b64url_eq_ok.mpr hsignature, _,
      encodeAscii_signed hheader hclaims, (), verifySignature_eq_ok.mpr ⟨rfl, hverifies⟩, payload,
      hpayload, claims, hreads, checkClaims_eq_ok.mpr ⟨now, hnow, hentitles⟩⟩

theorem verify_eq_ok {token : Text} {actor : ActorContext} :
    v.verify token = .ok actor ↔ Acceptable v token actor := by
  unfold EntraTokenVerifier.verify
  rw [ite_error_eq_ok, not_not]
  constructor
  · rintro ⟨⟨-, hshort⟩, h⟩
    refine ⟨hshort, checkToken_eq_ok.mp ?_⟩
    cases hcheck : v.checkToken token with
    | error e =>
      rw [hcheck] at h
      cases h
    | ok found =>
      rw [hcheck] at h
      obtain rfl := Except.ok.inj h
      rfl
  · intro h
    have hcheck := checkToken_eq_ok.mpr h.parts
    refine ⟨⟨?_, h.short⟩, by rw [hcheck]⟩
    obtain ⟨first, second, third, -, -, -, -, -, -, hparts, -⟩ := h.parts
    apply List.length_pos_of_ne_nil
    rintro rfl
    simp at hparts

/-- Every refusal is the same error. -/
theorem verify_eq_error {token : Text} {e : EntraTokenVerifier.AuthenticationError}
    (h : v.verify token = .error e) : e = ⟨lit "invalid bearer token"⟩ := by
  unfold EntraTokenVerifier.verify at h
  split_ifs at h
  · cases hcheck : v.checkToken token with
    | ok actor =>
      rw [hcheck] at h
      cases h
    | error e' =>
      rw [hcheck] at h
      exact (Except.error.inj h).symm
  · exact (Except.error.inj h).symm

/-- The verifier returns an actor exactly for the tokens that are acceptable for it, and
raises its one error for all others. -/
theorem token_accepted_iff (v : EntraTokenVerifier F K) (token : Text) :
    (∀ actor, v.verify token = .ok actor ↔ Acceptable v token actor) ∧
    ((∀ actor, ¬ Acceptable v token actor) → v.verify token = .error ⟨lit "invalid bearer token"⟩) := by
  refine ⟨fun actor => verify_eq_ok, ?_⟩
  intro hnone
  cases hverify : v.verify token with
  | ok actor => exact absurd (verify_eq_ok.mp hverify) (hnone actor)
  | error e => rw [verify_eq_error hverify]

/-! ### Tokens of an issuer -/

/-- The compact form of a signed token. -/
def compactToken (header claims signature : Bytes) : Text :=
  List.intercalate [ofChar '.']
    [urlsafeB64encode header, urlsafeB64encode claims, urlsafeB64encode signature]

theorem dot_not_mem {bytes : Bytes} (h : CarriesBytes t bytes) : ofChar '.' ∉ t := by
  intro hmem
  have hclass := h.alphabet _ hmem
  revert hclass
  decide

theorem splitOn_compactToken {header claims signature : Bytes} (hheader : header ≠ []) (hclaims : claims ≠ [])
    (hsignature : signature ≠ []) : (compactToken header claims signature).splitOn (ofChar '.') =
      [urlsafeB64encode header, urlsafeB64encode claims, urlsafeB64encode signature] := by
  have hparts : ∀ part ∈ [urlsafeB64encode header, urlsafeB64encode claims,
      urlsafeB64encode signature], ofChar '.' ∉ part := by
    simp only [List.forall_mem_cons, List.not_mem_nil, false_implies, implies_true, and_true]
    exact ⟨dot_not_mem (carriesBytes_encode hheader), dot_not_mem (carriesBytes_encode hclaims),
      dot_not_mem (carriesBytes_encode hsignature)⟩
  rw [compactToken, splitOn_intercalate_eq_pieces (List.cons_ne_nil _ _), pieces_of_not_mem hparts]

omit [IntegerPart F] in
/-- An object that an issuer has written is the one that the verifier reads. -/
theorem holdsObject_encode {text : Text} {bytes : Bytes} (hbytes : encodeUtf8 text = .ok bytes)
    (hne : bytes ≠ []) (hparse : v.parse text = .ok (.obj claims)) (hdistinct : Distinct (.obj claims)) :
    HoldsObject v (urlsafeB64encode bytes) claims :=
  ⟨bytes, text, carriesBytes_encode hne, decodeUtf8_encodeUtf8 hbytes, hparse, hdistinct⟩

/-- The verifier accepts what an issuer has encoded and signed with a known key, if the claims
entitle the actor. -/
theorem verify_compactToken {headerText claimsText kid : Text} {headerBytes claimsBytes signature : Bytes}
    {key : K} {now : ℤ} {actor : ActorContext} (hheader : encodeUtf8 headerText = .ok headerBytes)
    (hclaims : encodeUtf8 claimsText = .ok claimsBytes) (hheaderNe : headerBytes ≠ [])
    (hclaimsNe : claimsBytes ≠ []) (hsignatureNe : signature ≠ [])
    (hheaderParse : v.parse headerText = .ok (.obj header)) (hheaderDistinct : Distinct (.obj header))
    (hclaimsParse : v.parse claimsText = .ok (.obj claims)) (hclaimsDistinct : Distinct (.obj claims))
    (halg : get header (lit "alg") = .str (lit "RS256")) (hkid : get header (lit "kid") = .str kid)
    (hkey : v.getSigningKey kid = .ok key)
    (hsigned : v.verifies key signature ((urlsafeB64encode headerBytes ++ lit "." ++
      urlsafeB64encode claimsBytes).map fun c => UInt8.ofNat c.val) = .ok ())
    (hnow : WholePart v.clock now) (hentitles : Entitles v.tables v.config claims now actor)
    (hshort : (compactToken headerBytes claimsBytes signature).length ≤ maxTokenBytes) :
    v.verify (compactToken headerBytes claimsBytes signature) = .ok actor :=
  verify_eq_ok.mpr ⟨hshort, _, _, _, header, claims, kid, key, signature, now,
    splitOn_compactToken hheaderNe hclaimsNe hsignatureNe,
    holdsObject_encode hheader hheaderNe hheaderParse hheaderDistinct,
    holdsObject_encode hclaims hclaimsNe hclaimsParse hclaimsDistinct,
    carriesBytes_encode hsignatureNe, halg, hkid, hkey, hsigned, hnow, hentitles⟩

end Checks

end SentinelGRC.Identity
