import SentinelGRC.Governance.Targets
import SentinelGRC.Python.JsonRead
import SentinelGRC.Python.Str

/-!
`GovernanceApi.dispatch_actor` and `GovernanceHttpApplication.handle`. A request is routed,
its body is put over the fields of the route, the actor is authenticated, and the
dispatcher turns the action and the fields into one call of the core. What the core, the
identity store and the token verifier answer is a parameter; which calls are made is not.
-/

namespace SentinelGRC.Governance

open Python Json

variable {F : Type}

/-! ### Exceptions -/

/-- The classes that `handle` tells apart. A subclass is caught before its base:
`AuthenticationError` before `PermissionError`, the decode errors before `ValueError`. -/
inductive ErrorClass
  | authenticationError
  | permissionError
  | jsonDecodeError
  | unicodeDecodeError
  | valueError
  | keyError
  | other

/-- An exception: its class and its `str`. -/
structure Raised where
  kind : ErrorClass
  text : Text

/-- The exceptions of decoding and dispatching. The `str` of a `KeyError` is the `repr` of its
key; the texts of the decode errors are not read. -/
def raised (U : UnicodeTables) : PyError → Raised
  | .valueError message => ⟨.valueError, message⟩
  | .keyError key => ⟨.keyError, U.repr key⟩
  | .permissionError message => ⟨.permissionError, message⟩
  | .jsonDecodeError => ⟨.jsonDecodeError, []⟩
  | .unicodeDecodeError => ⟨.unicodeDecodeError, []⟩
  | _ => ⟨.other, []⟩

/-! ### Calls of the core -/

/-- A call of a method of `GovernanceCore`. -/
inductive CoreCall (F : Type)
  | listFindings (status : Json F)
  | getFinding (findingId : Text)
  | createFinding (findingId controlId assetId title riskOwner severity : Text) (actor : ActorContext)
  | assessRisk (findingId : Text) (actor : ActorContext) (likelihood impact : Text)
  | proposeTreatment (findingId : Text) (actor : ActorContext)
      (treatmentType reason actionOwner : Text) (dueDate : Json F)
  | approveTreatment (findingId : Text) (actor : ActorContext) (decision reason : Text)
  | startAction (findingId : Text) (actor : ActorContext) (implementer : Text)
  | submitEvidence (findingId : Text) (actor : ActorContext) (source content : Text)
  | verify (findingId : Text) (actor : ActorContext) (passed : Bool) (notes : Text)
  | close (findingId : Text) (actor : ActorContext) (reason : Text)
  | exportSummary

/-- The finding that a call reads or writes; two methods read all findings. -/
def CoreCall.finding? : CoreCall F → Option Text
  | .listFindings _ | .exportSummary => none
  | .createFinding findingId .. => some (strip findingId)
  | .getFinding findingId | .assessRisk findingId .. | .proposeTreatment findingId ..
  | .approveTreatment findingId .. | .startAction findingId .. | .submitEvidence findingId ..
  | .verify findingId .. | .close findingId .. => some findingId

/-- The operation that a call runs; reads run none, and a `due_date` that is not a text is
refused before anything is read. -/
def CoreCall.operation? : CoreCall F → Option (ActorContext × Operation)
  | .listFindings _ | .getFinding _ | .exportSummary => none
  | .createFinding findingId controlId assetId title riskOwner severity actor =>
    some (actor, .createFinding findingId controlId assetId title riskOwner severity)
  | .assessRisk findingId actor likelihood impact =>
    some (actor, .assessRisk findingId likelihood impact)
  | .proposeTreatment findingId actor treatmentType reason actionOwner .null =>
    some (actor, .proposeTreatment findingId treatmentType reason actionOwner none)
  | .proposeTreatment findingId actor treatmentType reason actionOwner (.str dueDate) =>
    some (actor, .proposeTreatment findingId treatmentType reason actionOwner (some dueDate))
  | .proposeTreatment .. => none
  | .approveTreatment findingId actor decision reason =>
    some (actor, .approveTreatment findingId decision reason)
  | .startAction findingId actor implementer => some (actor, .startAction findingId implementer)
  | .submitEvidence findingId actor source content =>
    some (actor, .submitEvidence findingId source (.text content))
  | .verify findingId actor passed notes => some (actor, .verify findingId passed notes)
  | .close findingId actor reason => some (actor, .close findingId reason)

theorem CoreCall.finding?_of_operation? {call : CoreCall F} {actor : ActorContext}
    {operation : Operation} (h : call.operation? = some (actor, operation)) :
    call.finding? = some operation.findingId := by
  cases call with
  | listFindings | getFinding | exportSummary => cases h
  | proposeTreatment findingId actor treatmentType reason actionOwner dueDate =>
    cases dueDate with
    | null | str =>
      cases h
      rfl
    | bool | int | float | arr | obj => cases h
  | _ =>
    cases h
    rfl

/-- By `run_frame` the operation of a call leaves the other findings as they were. -/
theorem CoreCall.not_names {call : CoreCall F} {actor : ActorContext} {operation : Operation}
    (h : call.operation? = some (actor, operation)) {k : Text} (hk : call.finding? ≠ some k)
    (recordId : Uuid) : ¬ (Action.call (F := F) actor operation recordId).Names k := by
  intro hnames
  rw [finding?_of_operation? h] at hk
  exact hk (congrArg some hnames)

/-- What `dispatch_actor` returns of the result of a call. -/
def CoreCall.wrap : CoreCall F → Json F → Json F
  | .listFindings _, findings => .obj [(lit "findings", findings)]
  | _, result => result

/-! ### The dispatcher -/

inductive ApiAction
  | list
  | get
  | create
  | assess
  | propose
  | approve
  | start
  | evidence
  | verify
  | close
  | report
  deriving DecidableEq

def ApiAction.text : ApiAction → Text
  | .list => lit "list"
  | .get => lit "get"
  | .create => lit "create"
  | .assess => lit "assess"
  | .propose => lit "propose"
  | .approve => lit "approve"
  | .start => lit "start"
  | .evidence => lit "evidence"
  | .verify => lit "verify"
  | .close => lit "close"
  | .report => lit "report"

def apiActions : List ApiAction :=
  [.list, .get, .create, .assess, .propose, .approve, .start, .evidence, .verify, .close, .report]

def ApiAction.ofText? (t : Text) : Option ApiAction := apiActions.find? fun a => a.text = t

/-- `FORBIDDEN_ACTOR_FIELDS`. -/
def forbiddenActorFields : List Text :=
  [lit "actor_id", lit "approved_by", lit "reviewed_by", lit "closed_by", lit "audit_actor"]

section Dispatch

variable [PyFloat F]

/-- `str(body[name])`. -/
def requiredField (U : UnicodeTables) (body : Fields F) (name : Text) : Except PyError Text :=
  match field name body with
  | some v => v.pyStr U
  | none => .error (.keyError name)

/-- `str(body.get(name, ""))`. -/
def optionalField (U : UnicodeTables) (body : Fields F) (name : Text) : Except PyError Text :=
  ((field name body).getD (.str [])).pyStr U

/-- The branches of `dispatch_actor`. -/
def ApiAction.call (U : UnicodeTables) (actor : ActorContext) (body : Fields F) (findingId : Text) :
    ApiAction → Except PyError (CoreCall F)
  | .list => .ok (.listFindings (Json.get body (lit "status")))
  | .get => .ok (.getFinding findingId)
  | .create => do
    let controlId ← requiredField U body (lit "control_id")
    let assetId ← requiredField U body (lit "asset_id")
    let title ← requiredField U body (lit "title")
    let riskOwner ← requiredField U body (lit "risk_owner")
    let severity ← requiredField U body (lit "severity")
    return .createFinding findingId controlId assetId title riskOwner severity actor
  | .assess => do
    let likelihood ← requiredField U body (lit "likelihood")
    let impact ← requiredField U body (lit "impact")
    return .assessRisk findingId actor likelihood impact
  | .propose => do
    let treatmentType ← requiredField U body (lit "treatment_type")
    let reason ← requiredField U body (lit "reason")
    let actionOwner ← requiredField U body (lit "action_owner")
    return .proposeTreatment findingId actor treatmentType reason actionOwner
      (Json.get body (lit "due_date"))
  | .approve => do
    let decision ← requiredField U body (lit "decision")
    let reason ← optionalField U body (lit "reason")
    return .approveTreatment findingId actor decision reason
  | .start => do
    let implementer ← requiredField U body (lit "implementer")
    return .startAction findingId actor implementer
  | .evidence => do
    let source ← requiredField U body (lit "source")
    let content ← requiredField U body (lit "content")
    return .submitEvidence findingId actor source content
  | .verify =>
    match field (lit "passed") body with
    | none => .error (.keyError (lit "passed"))
    | some (.bool passed) => do
      let notes ← optionalField U body (lit "notes")
      return .verify findingId actor passed notes
    | some _ => .error (.valueError (lit "passed must be a boolean"))
  | .close => do
    let reason ← optionalField U body (lit "reason")
    return .close findingId actor reason
  | .report => .ok .exportSummary

/-- `dispatch_actor`, up to its call of the core. -/
def dispatchActor (U : UnicodeTables) (action : Text) (actor : ActorContext) (body : Fields F) :
    Except PyError (CoreCall F) :=
  if forbiddenActorFields.any fun name => (field name body).isSome then
    .error (.valueError (lit "actor identity must come from authentication context"))
  else do
    let findingId ← optionalField U body (lit "finding_id")
    match ApiAction.ofText? action with
    | some action => action.call U actor body findingId
    | none => .error (.valueError (lit "unsupported governance action: " ++ action))

end Dispatch

/-! ### Routes and bodies -/

def maxRequestBodyBytes : ℕ := 256 * 1024

def findingPathPrefix : Text := lit "/findings/"

def governanceApiPrefix : Text := lit "/v1/governance/"

/-- `_reject_unknown_route`. -/
def rejectUnknownRoute (method path : Text) : Bool :=
  let knownGet := path = lit "/findings" ∨ findingPathPrefix <+: path
  let knownPost := governanceApiPrefix <+: path ∨ findingPathPrefix <+: path
  (method = lit "GET" ∧ ¬ knownGet) ∨ (method = lit "POST" ∧ ¬ knownPost)

def isSlash (c : CodePoint) : Bool := c = ofChar '/'

/-- `path.strip("/")`. -/
def stripSlashes (path : Text) : Text := (path.dropWhile isSlash).rdropWhile isSlash

/-- `_resolve_route`. -/
def resolveRoute (method path : Text) : Option (Text × Fields F) :=
  if method = lit "GET" ∧ path = lit "/findings" then some (lit "list", [])
  else if method = lit "GET" ∧ findingPathPrefix <+: path then
    some (lit "get",
      [(lit "finding_id", .str (stripSlashes (path.drop findingPathPrefix.length)))])
  else if method = lit "POST" ∧ governanceApiPrefix <+: path then
    some (stripSlashes (path.drop governanceApiPrefix.length), [])
  else if method = lit "POST" ∧ findingPathPrefix <+: path then
    match (stripSlashes path).splitOn (ofChar '/') with
    | [_, findingId, action] => some (action, [(lit "finding_id", .str findingId)])
    | _ => none
  else none

/-- `_decode_body`. -/
def decodeBody [PyFloat F] (body : Bytes) : Except PyError (Fields F) := do
  let text ← decodeUtf8 body
  let parsed ← loads text
  match parsed with
  | .obj fields => return fields
  | _ => throw (.valueError (lit "request body must be an object"))

/-! ### The application -/

/-- The tables of the interpreter that decide the upper and the lower case of a text. -/
structure HttpTables extends UnicodeTables where
  upper : Text → Text

/-- How `_dispatch` finds the actor. -/
inductive Authentication
  /-- `HumanIdentityStore.authenticate` on a key id and a secret. -/
  | apiKey (authenticate : Text → Text → Except Raised ActorContext)
  /-- `OidcVerifier.verify` on a token. -/
  | oidc (verify : Text → Except Raised ActorContext)

structure Application (F : Type) where
  tables : HttpTables
  authentication : Authentication
  core : CoreCall F → Except Raised (Json F)

structure Request where
  method : Text
  path : Text
  headers : List (Text × Text)
  body : Bytes

/-- The answer to a request, and the calls of the core that were made for it. -/
structure Handled (F : Type) where
  calls : List (CoreCall F)
  answer : Except Raised (ℕ × Json F)

/-- `normalized_headers.get(name)`: of the headers under a name, the last one stands. -/
def header? (T : HttpTables) (headers : List (Text × Text)) (name : Text) : Option Text :=
  (headers.reverse.find? fun h => T.lower (strip h.1) = name).map Prod.snd

/-- The token of a bearer header. -/
def bearer? (T : HttpTables) (headers : List (Text × Text)) : Option Text :=
  let authorization := (header? T headers (lit "authorization")).getD []
  if lit "Bearer " <+: authorization then some (authorization.drop 7) else none

def errorAnswer (status : ℕ) (error : Text) : ℕ × Json F :=
  (status, .obj [(lit "error", .str error)])

/-- The `except` clauses of `handle`. -/
def caught (error : Raised) : Except Raised (ℕ × Json F) :=
  match error.kind with
  | .authenticationError => .ok (errorAnswer 401 error.text)
  | .permissionError => .ok (errorAnswer 403 error.text)
  | .jsonDecodeError | .unicodeDecodeError => .ok (errorAnswer 400 (lit "invalid_json"))
  | .valueError | .keyError => .ok (errorAnswer 400 error.text)
  | .other => .error error

def refused (status : ℕ) (error : Text) : Handled F := ⟨[], .ok (errorAnswer status error)⟩

namespace Application

variable (app : Application F)

/-- The actor of a request with a bearer token. -/
def authenticate (headers : List (Text × Text)) (bearer : Text) : Except Raised ActorContext :=
  match app.authentication with
  | .oidc verify => verify bearer
  | .apiKey authenticate =>
    authenticate ((header? app.tables headers (lit "x-api-key-id")).getD []) bearer

/-- `_public_response`. -/
def publicResponse (method path : Text) : Option (Handled F) :=
  if method = lit "GET" ∧ (path = lit "/health" ∨ path = lit "/healthz") then
    some ⟨[], .ok (200, .obj [(lit "status", .str (lit "ok"))])⟩
  else if method = lit "GET" ∧ path = lit "/ready" then
    some ⟨[.exportSummary], .ok <| match app.core .exportSummary with
      | .ok _ => (200, .obj [(lit "status", .str (lit "ready"))])
      | .error _ => (503, .obj [(lit "status", .str (lit "not_ready"))])⟩
  else none

/-- The `try` block of `handle`, up to its call of the core. -/
def request [PyFloat F] (method : Text) (headers : List (Text × Text)) (body : Bytes)
    (bearer action : Text) (payload : Fields F) : Except Raised (CoreCall F) := do
  let payload ← if method = lit "POST" then
      ((decodeBody body).mapError (raised app.tables.toUnicodeTables)).map (update payload)
    else .ok payload
  let actor ← app.authenticate headers bearer
  (dispatchActor app.tables.toUnicodeTables action actor payload).mapError
    (raised app.tables.toUnicodeTables)

/-- What `handle` makes of a call or of what was raised before it. -/
def respond : Except Raised (CoreCall F) → Handled F
  | .error e => ⟨[], caught e⟩
  | .ok call => ⟨[call], match app.core call with
    | .ok result => .ok (200, call.wrap result)
    | .error e => caught e⟩

def handle [PyFloat F] (r : Request) : Handled F :=
  if maxRequestBodyBytes < r.body.length then refused 413 (lit "request_too_large")
  else
    let method := app.tables.upper r.method
    match app.publicResponse method r.path with
    | some handled => handled
    | none =>
      if rejectUnknownRoute method r.path then refused 404 (lit "not_found")
      else match bearer? app.tables r.headers with
        | none => refused 401 (lit "missing_bearer_token")
        | some bearer => match resolveRoute method r.path with
          | none => refused 404 (lit "not_found")
          | some (action, payload) =>
            app.respond (app.request method r.headers r.body bearer action payload)

end Application

end SentinelGRC.Governance
