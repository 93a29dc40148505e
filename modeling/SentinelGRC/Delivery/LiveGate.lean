import SentinelGRC.Contracts.Validation
import SentinelGRC.Delivery.Acceptance
import SentinelGRC.Python.JsonBytes

/-!
The publisher and the live gate. The publisher puts an outbox message into a message of
the broker; the gate checks a received message against the identity, the session and the
checksum it expects, and against the payload that the body holds.
-/

namespace SentinelGRC.Delivery

open Python Json Store Governance Transition

variable {F S : Type}

/-! ### Messages -/

/-- The message that a publisher hands to the broker. The last two fields are its application
properties. -/
structure ServiceBusMessage where
  body : Bytes
  messageId : Text
  contentType : Text
  subject : Text
  sessionId : Text
  partitionKey : Text
  correlationId : Text
  eventSequence : ℕ
  payloadSha256 : Text

/-- `AzureServiceBusPublisher.publish`. -/
def OutboxMessage.published (message : OutboxMessage) : ServiceBusMessage where
  body := message.body
  messageId := message.messageId
  contentType := lit "application/json"
  subject := message.topic
  sessionId := message.findingId
  partitionKey := message.findingId
  correlationId := message.eventId
  eventSequence := message.eventSequence
  payloadSha256 := message.sha256

/-- A key or a value of the application properties. -/
inductive Component
  | text (t : Text)
  | bytes (b : Bytes)
  | int (n : ℤ)
  | bool (b : Bool)
  | other
  deriving DecidableEq

/-- A section of a body. -/
inductive Section
  | bytes (b : Bytes)
  | other

inductive Body
  | bytes (b : Bytes)
  | sections (parts : List Section)
  /-- Neither bytes nor anything to iterate over. -/
  | other

inductive EnqueueTime
  | missing
  | naive
  | aware (d : AwareDatetime)

/-- A received message, with `none` for what the broker did not set. -/
structure ReceivedMessage where
  messageId : Option Text
  sessionId : Option Text
  subject : Option Text
  contentType : Option Text
  correlationId : Option Text
  body : Body
  /-- `none` for what is neither a dictionary nor empty. -/
  applicationProperties : Option (List (Component × Component))
  deliveryCount : Option ℤ
  enqueuedTime : EnqueueTime

/-! ### Reading a message -/

/-- What the gate raises. -/
inductive GateError
  | gate (message : Text)
  | raised (error : PyError)

def gateError {α : Type} (message : String) : Except GateError α := .error (.gate (lit message))

/-- `str(value)` of a text or `None`. -/
def strOf : Option Text → Text
  | some t => t
  | none => lit "None"

/-- The loop of `_message_parts`, after so many bytes. -/
def messageParts : ℕ → List Section → Except GateError Bytes
  | _, [] => .ok []
  | _, .other :: _ => gateError "Service Bus message body is invalid"
  | size, .bytes b :: rest =>
    if maxMessageBytes < size + b.length then gateError "Service Bus message body size is invalid"
    else do
      let tail ← messageParts (size + b.length) rest
      return b ++ tail

/-- `_message_body`. -/
def messageBody (body : Body) : Except GateError Bytes := do
  let encoded ← match body with
    | .bytes b => .ok b
    | .sections parts => messageParts 0 parts
    | .other => gateError "Service Bus message body is invalid"
  if encoded.isEmpty ∨ maxMessageBytes < encoded.length then
    gateError "Service Bus message body size is invalid"
  else .ok encoded

/-- `_ascii_property_component`. -/
def asciiComponent : Component → Except GateError Component
  | .bytes b =>
    if b.all fun c => c.toNat < 0x80 then .ok (.text (b.map fun c => ⟨c.toNat, by have := c.toNat_lt; omega⟩))
    else gateError "Service Bus application properties are invalid"
  | c => .ok c

/-- The loop of `_properties`, after the properties read so far. -/
def normalized : List (Text × Component) → List (Component × Component) →
    Except GateError (List (Text × Component))
  | read, [] => .ok read
  | read, (key, value) :: rest => do
    match ← asciiComponent key with
    | .text name =>
      if name ∈ read.map Prod.fst then gateError "Service Bus application properties are invalid"
      else do
        let value ← asciiComponent value
        normalized (read ++ [(name, value)]) rest
    | _ => gateError "Service Bus application properties are invalid"

/-- `_properties`. -/
def properties (m : ReceivedMessage) : Except GateError (List (Text × Component)) :=
  match m.applicationProperties with
  | some raw => normalized [] raw
  | none => gateError "Service Bus application properties are invalid"

/-- `properties.get(name)`. -/
def property (ps : List (Text × Component)) (name : String) : Option Component :=
  ps.lookup (lit name)

/-! ### Verification -/

/-- `ExpectedServiceBusMessage`. -/
structure ExpectedMessage where
  messageId : Text
  sessionId : Text
  payloadSha256 : Text
  messageId_hex : isId messageId = true
  sessionId_identifier : Contracts.isIdentifier sessionId = true
  payloadSha256_hex : payloadSha256.length = 64 ∧ payloadSha256.all isLowerHex = true

/-- `ExpectedServiceBusMessage.__post_init__`. -/
def expectedMessage (messageId sessionId payloadSha256 : Text) : Except PyError ExpectedMessage :=
  if h : isId messageId = true then
    if h' : Contracts.isIdentifier sessionId = true then
      if h'' : payloadSha256.length = 64 ∧ payloadSha256.all isLowerHex = true then
        .ok ⟨messageId, sessionId, payloadSha256, h, h', h''⟩
      else .error (.valueError (lit "payload_sha256 is invalid"))
    else .error (.valueError (lit "session_id is invalid"))
  else .error (.valueError (lit "message_id is invalid"))

def expectedTopic : Text := lit "governance.event.v1"

/-- `_verify_service_bus_metadata`. -/
def verifyMetadata (m : ReceivedMessage) (expected : ExpectedMessage) : Except GateError Unit :=
  if strOf m.messageId ≠ expected.messageId then
    gateError "Service Bus message identity does not match"
  else if strOf m.sessionId ≠ expected.sessionId then
    gateError "Service Bus session identity does not match"
  else if strOf m.subject ≠ expectedTopic then gateError "Service Bus message topic does not match"
  else if strOf m.contentType ≠ lit "application/json" then
    gateError "Service Bus content type does not match"
  else .ok ()

def raisedByGate {α : Type} : Except PyError α → Except GateError α
  | .ok a => .ok a
  | .error e => .error (.raised e)

variable [PyFloat F]

/-- `_verify_service_bus_payload`. -/
def verifyPayload (H : Digest) (m : ReceivedMessage) (expected : ExpectedMessage) :
    Except GateError (Fields F) := do
  let body ← messageBody m.body
  if H.hexdigest body ≠ expected.payloadSha256 then
    gateError "Service Bus payload checksum does not match"
  else match (loadsBytes body : Except PyError (Json F)) with
  | .error .unicodeDecodeError | .error .jsonDecodeError =>
    gateError "Service Bus payload is not valid JSON"
  | .error e => .error (.raised e)
  | .ok (.obj payload) => do
    let canonical ← raisedByGate (dumps compact (.obj payload))
    let encoded ← raisedByGate (encodeUtf8 canonical)
    if encoded ≠ body then gateError "Service Bus payload is not canonical JSON"
    else if !(get payload (lit "finding_id")).pyEq (.str expected.sessionId) then
      gateError "Service Bus payload session binding does not match"
    else .ok payload
  | .ok _ => gateError "Service Bus payload is not an object"

/-- The keys that the application properties must have. -/
def expectedKeys (fromDeadLetter : Bool) : List Text :=
  [lit "event_sequence", lit "payload_sha256"] ++
    if fromDeadLetter then [lit "DeadLetterReason", lit "DeadLetterErrorDescription"] else []

/-- `_verify_service_bus_properties`. -/
def verifyProperties (m : ReceivedMessage) (expected : ExpectedMessage) (payload : Fields F)
    (fromDeadLetter : Bool) : Except GateError ℤ := do
  let ps ← properties m
  if ¬ ((∀ p ∈ ps, p.1 ∈ expectedKeys fromDeadLetter) ∧
      ∀ k ∈ expectedKeys fromDeadLetter, k ∈ ps.map Prod.fst) then
    gateError "Service Bus application properties do not match"
  else if fromDeadLetter = true ∧
      (property ps "DeadLetterReason" ≠ some (.text (lit "SentinelGRCSyntheticGateFailure")) ∨
        property ps "DeadLetterErrorDescription" ≠
          some (.text (lit "Approved synthetic live-gate failure"))) then
    gateError "Service Bus dead-letter property contract does not match"
  else if property ps "payload_sha256" ≠ some (.text expected.payloadSha256) then
    gateError "Service Bus checksum property does not match"
  else match property ps "event_sequence" with
  | some (.int eventSequence) =>
    match get payload (lit "event_sequence") with
    | .int payloadSequence =>
      if eventSequence < 1 ∨ payloadSequence ≠ eventSequence then
        gateError "Service Bus event sequence does not match"
      else if !(get payload (lit "event_id")).pyEq (.str (strOf m.correlationId)) then
        gateError "Service Bus correlation identity does not match"
      else .ok eventSequence
    | _ => gateError "Service Bus event sequence does not match"
  | _ => gateError "Service Bus event sequence is invalid"

omit [PyFloat F] in
/-- `_delivery_count`. -/
def deliveryCount (m : ReceivedMessage) : Except GateError ℤ :=
  match m.deliveryCount with
  | none => gateError "Service Bus delivery count is invalid"
  | some n => if n < 0 then gateError "Service Bus delivery count is invalid" else .ok n

/-- `isoformat(timespec="milliseconds").replace("+00:00", "Z")`. -/
def isoformatMillis (d : UtcDatetime) : Text :=
  padText 4 d.year ++ lit "-" ++ padText 2 d.month ++ lit "-" ++ padText 2 d.day ++ lit "T" ++
    padText 2 d.hour.val ++ lit ":" ++ padText 2 d.minute.val ++ lit ":" ++ padText 2 d.second.val ++
    lit "." ++ padText 3 (d.microsecond.val / 1000) ++ lit "Z"

/-- `_rfc3339` of the enqueue time. -/
def enqueuedAt (m : ReceivedMessage) : Except GateError Text :=
  match m.enqueuedTime with
  | .aware d => do
    let utc ← raisedByGate d.astimezone
    return isoformatMillis utc
  | _ => gateError "Service Bus enqueue time is invalid"

/-- What `verify_service_bus_message` reports. -/
structure GateReport where
  messageId : Text
  sessionId : Text
  payloadSha256 : Text
  eventSequence : ℤ
  deliveryCount : ℤ
  brokerEnqueuedAt : Text

/-- `verify_service_bus_message`. -/
def verifyServiceBusMessage (F : Type) [PyFloat F] (H : Digest) (m : ReceivedMessage)
    (expected : ExpectedMessage) (fromDeadLetter : Bool) : Except GateError GateReport := do
  verifyMetadata m expected
  let payload : Fields F ← verifyPayload H m expected
  let eventSequence ← verifyProperties m expected payload fromDeadLetter
  let count ← deliveryCount m
  let enqueued ← enqueuedAt m
  return ⟨expected.messageId, expected.sessionId, expected.payloadSha256, eventSequence, count,
    enqueued⟩

/-! ### Acceptance -/

/-- The properties that the dead-letter queue adds to those of the publisher. -/
def deadLetterProperties (fromDeadLetter : Bool) : List (Text × Component) :=
  if fromDeadLetter then
    [(lit "DeadLetterReason", .text (lit "SentinelGRCSyntheticGateFailure")),
      (lit "DeadLetterErrorDescription", .text (lit "Approved synthetic live-gate failure"))]
  else []

/-- The properties of a message with a number and a checksum. -/
def boundProperties (eventSequence : ℤ) (payloadSha256 : Text) (fromDeadLetter : Bool) :
    List (Text × Component) :=
  [(lit "event_sequence", .int eventSequence), (lit "payload_sha256", .text payloadSha256)] ++
    deadLetterProperties fromDeadLetter

omit [PyFloat F] in
theorem keys_boundProperties (n : ℤ) (sha : Text) (fromDeadLetter : Bool) :
    (boundProperties n sha fromDeadLetter).map Prod.fst = expectedKeys fromDeadLetter := by
  cases fromDeadLetter <;> rfl

theorem expectedKeys_nodup (fromDeadLetter : Bool) : (expectedKeys fromDeadLetter).Nodup := by
  cases fromDeadLetter <;> decide

theorem lookup_eq_some {α : Type} {ps : List (Text × α)} (hnodup : (ps.map Prod.fst).Nodup)
    {key : Text} {v : α} : ps.lookup key = some v ↔ (key, v) ∈ ps := by
  induction ps with
  | nil => simp
  | cons p ps ih =>
    obtain ⟨k, w⟩ := p
    rw [List.map_cons, List.nodup_cons] at hnodup
    rw [List.lookup_cons, List.mem_cons, Prod.mk.injEq]
    by_cases hk : key = k
    · subst hk
      have hout : (key, v) ∉ ps := fun h => hnodup.1 (List.mem_map.mpr ⟨_, h, rfl⟩)
      simp [hout, eq_comm]
    · rw [beq_false_of_ne hk]
      change List.lookup key ps = some v ↔ _
      rw [ih hnodup.2]
      simp [hk]

/-- Lists with distinct keys hold the same pairs when the keys of one are among those of the
other, where it finds the values of the other. -/
theorem perm_iff_lookup {α : Type} {ps qs : List (Text × α)} (hps : (ps.map Prod.fst).Nodup)
    (hqs : (qs.map Prod.fst).Nodup) :
    ps.Perm qs ↔ (∀ p ∈ ps, p.1 ∈ qs.map Prod.fst) ∧ ∀ q ∈ qs, ps.lookup q.1 = some q.2 := by
  rw [List.perm_ext_iff_of_nodup hps.of_map hqs.of_map]
  constructor
  · intro h
    exact ⟨fun p hp => List.mem_map_of_mem ((h p).mp hp),
      fun q hq => (lookup_eq_some hps).mpr ((h q).mpr hq)⟩
  · rintro ⟨hkeys, hvalues⟩ p
    constructor
    · intro hp
      obtain ⟨q, hq, hkey⟩ := List.mem_map.mp (hkeys p hp)
      have hsame := hvalues q hq
      rw [hkey, (lookup_eq_some hps).mpr hp, Option.some.injEq] at hsame
      exact (Prod.ext hkey hsame.symm : q = p) ▸ hq
    · intro hp
      exact (lookup_eq_some hps).mp (hvalues p hp)

theorem normalized_nodup : ∀ {raw : List (Component × Component)} {read ps : List (Text × Component)},
    (read.map Prod.fst).Nodup → normalized read raw = .ok ps → (ps.map Prod.fst).Nodup
  | [], read, ps, hread, h => by
    cases h
    exact hread
  | (key, value) :: rest, read, ps, hread, h => by
    obtain ⟨name, hname, h⟩ := bind_eq_ok.mp h
    cases name with
    | text name =>
      simp only [gateError, ite_error_eq_ok] at h
      obtain ⟨hfresh, h⟩ := h
      obtain ⟨v, hvalue, h⟩ := bind_eq_ok.mp h
      refine normalized_nodup ?_ h
      rw [List.map_append, List.nodup_append]
      refine ⟨hread, List.nodup_singleton _, ?_⟩
      intro k hk n hn hsame
      obtain rfl : n = name := List.mem_singleton.mp hn
      exact hfresh (hsame ▸ hk)
    | bytes b => cases h
    | int n => cases h
    | bool b => cases h
    | other => cases h

theorem properties_nodup {m : ReceivedMessage} {ps : List (Text × Component)}
    (h : properties m = .ok ps) : (ps.map Prod.fst).Nodup := by
  unfold properties at h
  cases hraw : m.applicationProperties with
  | none =>
    rw [hraw] at h
    cases h
  | some raw =>
    rw [hraw] at h
    have hread : (([] : List (Text × Component)).map Prod.fst).Nodup := List.nodup_nil
    exact normalized_nodup hread h

theorem ite_gateError_eq_ok {α : Type} {p : Prop} [Decidable p] {message : String}
    {x : Except GateError α} {a : α} :
    (if p then gateError message else x) = .ok a ↔ ¬ p ∧ x = .ok a := ite_error_eq_ok

theorem raisedByGate_eq_ok {α : Type} {x : Except PyError α} {a : α} :
    raisedByGate x = .ok a ↔ x = .ok a := by
  cases x <;> simp [raisedByGate]

theorem verifyMetadata_eq_ok {m : ReceivedMessage} {expected : ExpectedMessage} {u : Unit} :
    verifyMetadata m expected = .ok u ↔ strOf m.messageId = expected.messageId ∧
      strOf m.sessionId = expected.sessionId ∧ strOf m.subject = expectedTopic ∧
        strOf m.contentType = lit "application/json" := by
  unfold verifyMetadata
  simp only [ite_gateError_eq_ok, ne_eq, not_not]
  tauto

variable {H : Digest} {m : ReceivedMessage} {expected : ExpectedMessage}

theorem verifyPayload_eq_ok {payload : Fields F} :
    verifyPayload H m expected = .ok payload ↔ ∃ body canonical, messageBody m.body = .ok body ∧
      H.hexdigest body = expected.payloadSha256 ∧
      (loadsBytes body : Except PyError (Json F)) = .ok (.obj payload) ∧
      dumps compact (.obj payload) = .ok canonical ∧ encodeUtf8 canonical = .ok body ∧
      (get payload (lit "finding_id")).pyEq (.str expected.sessionId) = true := by
  unfold verifyPayload
  constructor
  · intro h
    obtain ⟨body, hbody, h⟩ := bind_eq_ok.mp h
    simp only [ite_gateError_eq_ok, ne_eq, not_not] at h
    obtain ⟨hhash, h⟩ := h
    split at h
    · cases h
    · cases h
    · cases h
    · rename_i fields hloads
      obtain ⟨canonical, hdumps, h⟩ := bind_eq_ok.mp h
      obtain ⟨encoded, hencode, h⟩ := bind_eq_ok.mp h
      simp only [ite_gateError_eq_ok, not_not, Bool.not_eq_true', Bool.not_eq_false,
        Except.ok.injEq] at h
      obtain ⟨rfl, hfinding, rfl⟩ := h
      exact ⟨encoded, canonical, hbody, hhash, hloads, raisedByGate_eq_ok.mp hdumps,
        raisedByGate_eq_ok.mp hencode, hfinding⟩
    · cases h
  · rintro ⟨body, canonical, hbody, hhash, hloads, hdumps, hencode, hfinding⟩
    refine bind_eq_ok.mpr ⟨body, hbody, ?_⟩
    simp only [ite_gateError_eq_ok, ne_eq, not_not]
    refine ⟨hhash, ?_⟩
    rw [hloads]
    refine bind_eq_ok.mpr ⟨canonical, raisedByGate_eq_ok.mpr hdumps, ?_⟩
    refine bind_eq_ok.mpr ⟨body, raisedByGate_eq_ok.mpr hencode, ?_⟩
    simp only [ite_gateError_eq_ok, not_not, Bool.not_eq_true', Bool.not_eq_false]
    exact ⟨trivial, hfinding, trivial⟩

theorem lookup_boundProperties {ps : List (Text × Component)} {n : ℤ} {sha : Text}
    {fromDeadLetter : Bool} :
    (∀ q ∈ boundProperties n sha fromDeadLetter, ps.lookup q.1 = some q.2) ↔
      property ps "event_sequence" = some (.int n) ∧
      property ps "payload_sha256" = some (.text sha) ∧
      ¬ (fromDeadLetter = true ∧
        (property ps "DeadLetterReason" ≠ some (.text (lit "SentinelGRCSyntheticGateFailure")) ∨
          property ps "DeadLetterErrorDescription" ≠
            some (.text (lit "Approved synthetic live-gate failure")))) := by
  cases fromDeadLetter <;> simp [boundProperties, deadLetterProperties, property]

theorem verifyProperties_eq_ok {payload : Fields F} {fromDeadLetter : Bool} {n : ℤ} :
    verifyProperties m expected payload fromDeadLetter = .ok n ↔
      (∃ ps, properties m = .ok ps ∧
        ps.Perm (boundProperties n expected.payloadSha256 fromDeadLetter)) ∧
      1 ≤ n ∧ get payload (lit "event_sequence") = .int n ∧
      (get payload (lit "event_id")).pyEq (.str (strOf m.correlationId)) = true := by
  have hkeys := keys_boundProperties n expected.payloadSha256 fromDeadLetter
  have hbound : ((boundProperties n expected.payloadSha256 fromDeadLetter).map Prod.fst).Nodup :=
    hkeys ▸ expectedKeys_nodup fromDeadLetter
  unfold verifyProperties
  constructor
  · intro h
    obtain ⟨ps, hps, h⟩ := bind_eq_ok.mp h
    simp only [ite_gateError_eq_ok, not_not] at h
    obtain ⟨⟨honly, -⟩, hdead, hsha, h⟩ := h
    split at h
    · rename_i k hk
      split at h
      · rename_i j hj
        simp only [ite_gateError_eq_ok, not_or, not_lt, not_not, Bool.not_eq_true', Bool.not_eq_false,
          Except.ok.injEq] at h
        obtain ⟨⟨hpos, rfl⟩, hid, rfl⟩ := h
        refine ⟨⟨ps, hps, (perm_iff_lookup (properties_nodup hps) hbound).mpr ⟨?_, ?_⟩⟩, hpos, hj, hid⟩
        · rw [hkeys]
          exact honly
        · exact lookup_boundProperties.mpr ⟨hk, hsha, hdead⟩
      · cases h
    · cases h
  · rintro ⟨⟨ps, hps, hperm⟩, hpos, hnumber, hid⟩
    have hmem (k : Text) : k ∈ ps.map Prod.fst ↔ k ∈ expectedKeys fromDeadLetter := by
      rw [(hperm.map Prod.fst).mem_iff, hkeys]
    obtain ⟨hk, hsha, hdead⟩ := lookup_boundProperties.mp
      ((perm_iff_lookup (properties_nodup hps) hbound).mp hperm).2
    refine bind_eq_ok.mpr ⟨ps, hps, ?_⟩
    simp only [ite_gateError_eq_ok, not_not]
    refine ⟨⟨fun p hp => (hmem p.1).mp (List.mem_map_of_mem hp), fun k hk => (hmem k).mpr hk⟩,
      hdead, hsha, ?_⟩
    rw [hk, hnumber]
    simp only [ite_gateError_eq_ok, not_or, not_lt, not_not, Bool.not_eq_true', Bool.not_eq_false]
    exact ⟨⟨hpos, trivial⟩, hid, trivial⟩

theorem deliveryCount_eq_ok {n : ℤ} : deliveryCount m = .ok n ↔ m.deliveryCount = some n ∧ 0 ≤ n := by
  unfold deliveryCount
  cases m.deliveryCount with
  | none => simp [gateError]
  | some k =>
    simp only [ite_gateError_eq_ok, not_lt, Except.ok.injEq, Option.some.injEq]
    constructor
    · rintro ⟨h, rfl⟩
      exact ⟨rfl, h⟩
    · rintro ⟨rfl, h⟩
      exact ⟨h, rfl⟩

theorem enqueuedAt_eq_ok {t : Text} :
    enqueuedAt m = .ok t ↔ ∃ d utc, m.enqueuedTime = .aware d ∧ d.astimezone = .ok utc ∧
      isoformatMillis utc = t := by
  unfold enqueuedAt
  cases m.enqueuedTime with
  | missing => simp [gateError]
  | naive => simp [gateError]
  | aware d =>
    constructor
    · intro h
      obtain ⟨utc, hutc, h⟩ := bind_eq_ok.mp h
      exact ⟨d, utc, rfl, raisedByGate_eq_ok.mp hutc, Except.ok.inj h⟩
    · rintro ⟨_, utc, heq, hutc, rfl⟩
      cases heq
      exact bind_eq_ok.mpr ⟨utc, raisedByGate_eq_ok.mpr hutc, rfl⟩

/-- What holds of a message that the gate accepts. -/
structure Accepts (H : Digest) (m : ReceivedMessage) (expected : ExpectedMessage)
    (fromDeadLetter : Bool) (payload : Fields F) (report : GateReport) : Prop where
  messageId : strOf m.messageId = expected.messageId
  sessionId : strOf m.sessionId = expected.sessionId
  subject : strOf m.subject = expectedTopic
  contentType : strOf m.contentType = lit "application/json"
  body : ∃ body canonical, messageBody m.body = .ok body ∧
    H.hexdigest body = expected.payloadSha256 ∧
    (loadsBytes body : Except PyError (Json F)) = .ok (.obj payload) ∧
    dumps compact (.obj payload) = .ok canonical ∧ encodeUtf8 canonical = .ok body
  findingId : (get payload (lit "finding_id")).pyEq (.str expected.sessionId) = true
  properties : ∃ ps, properties m = .ok ps ∧
    ps.Perm (boundProperties report.eventSequence expected.payloadSha256 fromDeadLetter)
  eventSequence : 1 ≤ report.eventSequence ∧
    get payload (lit "event_sequence") = .int report.eventSequence
  eventId : (get payload (lit "event_id")).pyEq (.str (strOf m.correlationId)) = true
  deliveryCount : m.deliveryCount = some report.deliveryCount ∧ 0 ≤ report.deliveryCount
  enqueuedTime : ∃ d utc, m.enqueuedTime = .aware d ∧ d.astimezone = .ok utc ∧
    isoformatMillis utc = report.brokerEnqueuedAt
  reported : report.messageId = expected.messageId ∧ report.sessionId = expected.sessionId ∧
    report.payloadSha256 = expected.payloadSha256

/-- The gate accepts exactly the messages that pass its checks. -/
theorem verifyServiceBusMessage_eq_ok {fromDeadLetter : Bool} {report : GateReport} :
    verifyServiceBusMessage F H m expected fromDeadLetter = .ok report ↔
      ∃ payload : Fields F, Accepts H m expected fromDeadLetter payload report := by
  constructor
  · intro h
    obtain ⟨_, hmetadata, h⟩ := bind_eq_ok.mp h
    obtain ⟨payload, hpayload, h⟩ := bind_eq_ok.mp h
    obtain ⟨n, hproperties, h⟩ := bind_eq_ok.mp h
    obtain ⟨count, hcount, h⟩ := bind_eq_ok.mp h
    obtain ⟨t, htime, h⟩ := bind_eq_ok.mp h
    cases h
    obtain ⟨hid, hsession, hsubject, htype⟩ := verifyMetadata_eq_ok.mp hmetadata
    obtain ⟨body, canonical, hbody, hhash, hloads, hdumps, hencode, hfinding⟩ :=
      verifyPayload_eq_ok.mp hpayload
    obtain ⟨hps, hpos, hnumber, heventId⟩ := verifyProperties_eq_ok.mp hproperties
    exact ⟨payload, hid, hsession, hsubject, htype,
      ⟨body, canonical, hbody, hhash, hloads, hdumps, hencode⟩, hfinding, hps, ⟨hpos, hnumber⟩,
      heventId, deliveryCount_eq_ok.mp hcount, enqueuedAt_eq_ok.mp htime, rfl, rfl, rfl⟩
  · rintro ⟨payload, h⟩
    obtain ⟨body, canonical, hbody, hhash, hloads, hdumps, hencode⟩ := h.body
    refine bind_eq_ok.mpr ⟨(), verifyMetadata_eq_ok.mpr
      ⟨h.messageId, h.sessionId, h.subject, h.contentType⟩, ?_⟩
    refine bind_eq_ok.mpr ⟨payload, verifyPayload_eq_ok.mpr
      ⟨body, canonical, hbody, hhash, hloads, hdumps, hencode, h.findingId⟩, ?_⟩
    refine bind_eq_ok.mpr ⟨_, verifyProperties_eq_ok.mpr
      ⟨h.properties, h.eventSequence.1, h.eventSequence.2, h.eventId⟩, ?_⟩
    refine bind_eq_ok.mpr ⟨_, deliveryCount_eq_ok.mpr h.deliveryCount, ?_⟩
    refine bind_eq_ok.mpr ⟨_, enqueuedAt_eq_ok.mpr h.enqueuedTime, ?_⟩
    obtain ⟨hid, hsession, hsha⟩ := h.reported
    rw [← hid, ← hsession, ← hsha]
    rfl

end SentinelGRC.Delivery
