import SentinelGRC.Contracts.Canonical
import SentinelGRC.Ingestion.KeyRegistry
import SentinelGRC.Ingestion.PublicationRecovery
import SentinelGRC.Posture.Validation

/-!
The ingestion server. A request is read, its key is looked up, its signature is checked and
its nonce reserved, its key is checked for the scope of the route, its payload is validated,
and what is published is the payload of a posture or the normalized record of the others.
Requests take one step at a time, in any order, between uses of the key registry, sweeps and
restarts. Nothing gets into an inbox but what such a request was let in with.
-/

namespace SentinelGRC.Ingestion

open Python Json Store Transition Contracts Posture

/-! ### Routes -/

/-- The directories that the server writes into. -/
inductive Inbox
  | posture
  | assetContext
  | remediationTicket
  deriving DecidableEq

def Inbox.path : Inbox → Text
  | .posture => lit "/v1/posture"
  | .assetContext => lit "/v1/asset-context"
  | .remediationTicket => lit "/v1/remediation-ticket"

def Inbox.requiredScope : Inbox → Text
  | .posture => postureWriteScope
  | .assetContext => assetContextWriteScope
  | .remediationTicket => remediationTicketWriteScope

def inboxes : List Inbox := [.posture, .assetContext, .remediationTicket]

/-- The inbox of a path, by `PORTFOLIO_ROUTES` and the path of postures. -/
def inboxAt? (path : Text) : Option Inbox := inboxes.find? fun inbox => inbox.path = path

/-! ### Requests -/

/-- A request as `do_POST` reads it: the headers with their defaults, and the bytes that the
client sends before it closes. -/
structure Post where
  path : Text
  contentType : Text
  contentLength : Text
  timestamp : Text
  nonce : Text
  authorization : Text
  stream : Bytes

def maxBodyBytes : ℤ := 64 * 1024

/-- A request with the credential and the body that were read from it. -/
structure Received where
  post : Post
  inbox : Inbox
  keyId : Text
  signature : Text
  body : Bytes

/-- `_read_authenticated_body`, up to its first look at the registry. -/
def Post.receive (U : UnicodeTables) (inbox : Inbox) (post : Post) : Except AuthError Received :=
  if ¬ lit "application/json" <+: U.lower post.contentType then
    .error (.ingestionError (lit "Content-Type must be application/json.") 400)
  else match pyInt post.contentLength with
    | none => .error (.python (.valueError
        (lit "invalid literal for int() with base 10: " ++ U.repr post.contentLength)))
    | some length =>
      if length < 1 ∨ maxBodyBytes < length then
        .error (.ingestionError (lit "Payload size is not allowed.") 413)
      else
        let body := post.stream.take length.toNat
        if (body.length : ℤ) ≠ length then
          .error (.ingestionError (lit "Incomplete request body.") 400)
        else match parseAuthorization post.authorization with
          | .error e => .error (.python e)
          | .ok (keyId, signature) => .ok ⟨post, inbox, keyId, signature, body⟩

/-- The arguments of `authenticate_request`. -/
def Received.call (r : Received) (secret : Bytes) (now : ℚ) : Call :=
  ⟨secret, lit "HMAC " ++ r.keyId ++ lit ":" ++ r.signature, r.post.timestamp, r.post.nonce, r.body, now⟩

/-- What a request does next. -/
inductive HandlingPhase
  | resolveSecret
  | authenticate (secret : Bytes)
  | isAuthorized (secret : Bytes)

structure Handling extends Received where
  phase : HandlingPhase

/-! ### Payloads -/

section Payloads

variable (F : Type) [PyFloat F] (H : Digest) (U : UnicodeTables)

/-- `_persist_posture` and `_persist_portfolio_record`, up to the bytes that they persist. -/
def evidence (inbox : Inbox) (body : Bytes) : Except PyError Bytes := do
  let text ← decodeUtf8 body
  let payload ← (loads text : Except PyError (Json F))
  match inbox with
  | .posture => do
    validatePosture U payload
    return body
  | .assetContext => do
    let normalized ← normalizeAssetContextV1 H payload
    let canonical ← dumps compact (.obj normalized.record : Json F)
    encodeUtf8 canonical
  | .remediationTicket => do
    let normalized ← normalizeRemediationTicketV1 H payload
    let canonical ← dumps compact (.obj normalized.record : Json F)
    encodeUtf8 canonical

end Payloads

/-! ### The server -/

structure IngestionState (F T : Type) where
  keySecrets : Fields F
  keys : AgentKeys
  nonces : NonceStore
  handlings : List Handling
  publication : PublicationState Inbox T

inductive IngestionReply
  | refused (status : ℕ) (error : Text)
  | published (reply : PublicationReply)
  | registry (reply : Except PyError Text)
  /-- An exception that `do_POST` lets through. -/
  | raised
  | none

/-- The `except` clauses of `do_POST`; `encoded` is the text of a `UnicodeEncodeError`. -/
def refusal (encoded : Text) : AuthError → IngestionReply
  | .ingestionError message status => .refused status message
  | .python .unicodeDecodeError | .python .jsonDecodeError => .refused 400 (lit "invalid_json")
  | .python (.valueError message) => .refused 400 message
  | .python .unicodeEncodeError => .refused 400 (encodeErrorText encoded)
  | .python .integrityError | .python .operationalError =>
    .refused 503 (lit "Evidence storage is unavailable.")
  | .python _ => .raised

inductive IngestionAction (F T : Type)
  | post (post : Post)
  /-- The next step of a request that is not yet published, at a reading of the clock. -/
  | advance (handling : ℕ) (now : ℚ)
  /-- `OSError` or a database error in that step. -/
  | fail (handling : ℕ)
  | registry (action : KeyAction)
  /-- A step of a publication or of a sweep. -/
  | publish (action : PublicationAction Inbox T)
  /-- The server dies with its requests and starts again, perhaps with other secrets. -/
  | restart (keySecrets : Fields F) (current : T)

section Server

variable {F T : Type} [PyFloat F] [Readings T]

namespace IngestionState

def drop (s : IngestionState F T) (i : ℕ) : IngestionState F T :=
  { s with handlings := s.handlings.eraseIdx i }

def proceed (s : IngestionState F T) (i : ℕ) (handling : Handling) (phase : HandlingPhase) :
    IngestionState F T :=
  { s with handlings := s.handlings.set i { handling with phase } }

/-- The payload of an admitted request is validated and its publication begins. -/
def persist (H : Digest) (U : UnicodeTables) (s : IngestionState F T) (handling : Handling) :
    IngestionState F T × IngestionReply :=
  match evidence F H U handling.inbox handling.body with
  | .error e => (s, refusal [] (.python e))
  | .ok bytes =>
    let (publication, reply) := publicationStep H s.publication (.request handling.inbox bytes)
    ({ s with publication }, .published reply)

/-- The secret that `resolve_secret` encodes. -/
def secretText (s : IngestionState F T) (keyId : Text) : Text :=
  match field keyId s.keySecrets with
  | some (.str secret) => secret
  | _ => []

def advance (H : Digest) (U : UnicodeTables) (s : IngestionState F T) (i : ℕ) (handling : Handling)
    (now : ℚ) : IngestionState F T × IngestionReply :=
  match handling.phase with
  | .resolveSecret =>
    match resolveSecret s.keys handling.keyId s.keySecrets with
    | .error e => (s.drop i, refusal (s.secretText handling.keyId) (.python e))
    | .ok none => (s.drop i, .refused 401 (lit "Unknown or revoked key."))
    | .ok (some secret) => (s.proceed i handling (.authenticate secret), .none)
  | .authenticate secret =>
    let (nonces, answer) := authenticateRequest H s.nonces (handling.call secret now)
    match answer with
    | .error e => ({ s.drop i with nonces }, refusal [] e)
    | .ok () => ({ s.proceed i handling (.isAuthorized secret) with nonces }, .none)
  | .isAuthorized _ =>
    match isAuthorized F s.keys handling.keyId handling.inbox.requiredScope with
    | .error e => (s.drop i, refusal [] (.python e))
    | .ok false => (s.drop i, .refused 403 (lit "Key is not authorized for this route."))
    | .ok true => (s.drop i).persist H U handling

/-- A request arrives. -/
def receive (U : UnicodeTables) (s : IngestionState F T) (post : Post) :
    IngestionState F T × IngestionReply :=
  match inboxAt? post.path with
  | none => (s, .refused 404 (lit "not_found"))
  | some inbox =>
    match post.receive U inbox with
    | .error e => (s, refusal [] e)
    | .ok received =>
      ({ s with handlings := s.handlings ++ [{ received with phase := .resolveSecret }] }, .none)

/-- The start of a server on the databases and files of the one before: no request is left, and
a sweep without grace begins. -/
def restart (H : Digest) (s : IngestionState F T) (keySecrets : Fields F) (current : T) :
    IngestionState F T :=
  { s with
    keySecrets
    nonces := { s.nonces with values := Table.empty }
    handlings := []
    publication :=
      (publicationStep H { s.publication with requests := [] } (.reconcile inboxes 0 current)).1 }

end IngestionState

def ingestionStep (H : Digest) (U : UnicodeTables) (s : IngestionState F T) :
    IngestionAction F T → IngestionState F T × IngestionReply
  | .post post => s.receive U post
  | .advance i now =>
    match s.handlings[i]? with
    | some handling => s.advance H U i handling now
    | none => (s, .none)
  | .fail i => (s.drop i, .refused 503 (lit "Evidence storage is unavailable."))
  | .registry action =>
    let (keys, reply) := keyRegistry.step s.keys action
    ({ s with keys }, .registry reply)
  | .publish (.request ..) => (s, .none)
  | .publish action =>
    let (publication, reply) := publicationStep H s.publication action
    ({ s with publication }, .published reply)
  | .restart keySecrets current => (s.restart H keySecrets current, .none)

def ingestionServer (F T : Type) [PyFloat F] [Readings T] (H : Digest) (U : UnicodeTables) :
    Machine (IngestionState F T) (IngestionAction F T) IngestionReply := ⟨ingestionStep H U⟩

end Server

end SentinelGRC.Ingestion
