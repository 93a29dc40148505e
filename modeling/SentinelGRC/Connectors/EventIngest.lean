import SentinelGRC.Connectors.Events
import SentinelGRC.Connectors.Jml
import SentinelGRC.Python.JsonRoundTrip

/-!
Signed connector events. The signature is an HMAC of the bytes of the payload, the replay
key is the source with the event id, and nothing ties the one to the other. Whoever has
seen a signed payload can have it accepted under any canonical identity, once for each,
and nothing else.
-/

namespace SentinelGRC.Connectors

open Python Json Store Transition

variable {T F : Type}

/-! ### Signatures -/

/-- `sign_event`. -/
def signEvent (H : Digest) (payload : Bytes) (secret : Text) : Except PyError Text := do
  let key ← encodeUtf8 secret
  return hmacHex H key payload

/-- `hmac.compare_digest` on two texts. -/
def compareDigest (a b : Text) : Except PyError Bool :=
  if a.all (fun c => c.val < 128) && b.all (fun c => c.val < 128) then .ok (a == b)
  else .error (.typeError (lit "comparing strings with non-ASCII characters is not supported"))

/-- `signature.removeprefix("sha256=")`. -/
def providedDigest (signature : Text) : Text := removeprefix (lit "sha256=") signature

/-- `verify_event_signature`. -/
def verifyEventSignature (H : Digest) (payload : Bytes) (signature secret : Text) :
    Except PyError Bool := do
  let expected ← signEvent H payload secret
  compareDigest expected (providedDigest signature)

/-! ### Ingestion -/

/-- The arguments of `ingest_event`, and the time of the call. -/
structure EventCall (T : Type) where
  raw : Bytes
  source : Text
  eventId : Text
  signature : Text
  maxBytes : ℤ := 1048576
  now : T

/-- What `ingest_event` returns. -/
structure IngestedEvent (F : Type) where
  status : Text
  eventId : Text
  source : Text
  payloadHash : Text
  payload : Option (Fields F)

/-- The payload, as `json.loads` reads it. -/
def decodePayload [PyFloat F] (raw : Bytes) : Except PyError (Fields F) :=
  match decodeUtf8 raw >>= loads with
  | .error .unicodeDecodeError | .error .jsonDecodeError =>
    .error (.valueError (lit "connector payload must be valid JSON"))
  | .error e => .error e
  | .ok (.obj payload) => .ok payload
  | .ok _ => .error (.valueError (lit "connector payload must be an object"))

/-- The steps of `ingest_event` before the reservation. -/
def admitEvent [PyFloat F] (H : Digest) (secret : Text) (c : EventCall T) :
    Except PyError (Fields F) := do
  validateConnectorEventIdentity c.eventId c.source none
  if c.maxBytes < c.raw.length then
    .error (.valueError (lit "connector payload exceeds size limit"))
  else
    let verified ← verifyEventSignature H c.raw c.signature secret
    if ! verified then .error (.permissionError (lit "invalid connector signature"))
    else decodePayload c.raw

/-- The replay key. -/
def EventCall.identity (c : EventCall T) : Text × Text := (c.source, c.eventId)

def EventCall.reservation (H : Digest) (c : EventCall T) : Reservation T :=
  ⟨c.eventId, c.source, H.hexdigest c.raw, c.now⟩

/-- `ingest_event`. -/
def ingestEvent [PyFloat F] (H : Digest) (secret : Text) (rows : ConnectorEvents T)
    (c : EventCall T) : ConnectorEvents T × Except ReserveError (IngestedEvent F) :=
  match admitEvent H secret c with
  | .error e => (rows, .error (.other e))
  | .ok payload =>
    match ConnectorEventStore.reserve rows (c.reservation H) with
    | (rows, .error e) => (rows, .error e)
    | (rows, .ok accepted) => (rows, .ok {
        status := if accepted then lit "accepted" else lit "duplicate"
        eventId := c.eventId
        source := c.source
        payloadHash := H.hexdigest c.raw
        payload := if accepted then some payload else none })

/-- The events of a store, as calls come in. -/
def ingestion [PyFloat F] (H : Digest) (secret : Text) :
    Machine (ConnectorEvents T) (EventCall T) (Except ReserveError (IngestedEvent F)) where
  step := ingestEvent H secret

/-- The status of the answer is `accepted`. -/
def isAccepted : Except ReserveError (IngestedEvent F) → Bool
  | .ok event => event.status == lit "accepted"
  | .error _ => false

/-! ### The adversary -/

/-- What the holder of the secret has signed, for whom and under which event id. -/
structure SignedDelivery where
  source : Text
  eventId : Text
  payload : Bytes

/-- The calls of whoever has the signatures of the deliveries and not the secret: the
signatures that are right are those of deliveries, and payloads that occur have one
signature only if they are the same. -/
structure Captured (H : Digest) (secret : Text) (deliveries : List SignedDelivery)
    (calls : List (EventCall T)) : Prop where
  unforged : ∀ c ∈ calls, signEvent H c.raw secret = .ok (providedDigest c.signature) →
    ∃ d ∈ deliveries, signEvent H d.payload secret = .ok (providedDigest c.signature)
  collisionFree : ∀ c ∈ calls, ∀ d ∈ deliveries, ∀ digest,
    signEvent H d.payload secret = .ok digest → signEvent H c.raw secret = .ok digest →
      d.payload = c.raw

/-! ### What is accepted -/

theorem compareDigest_eq_true {a b : Text} (h : compareDigest a b = .ok true) : a = b := by
  unfold compareDigest at h
  split_ifs at h
  simpa using h

theorem verifyEventSignature_eq_true {H : Digest} {payload : Bytes} {signature secret : Text}
    (h : verifyEventSignature H payload signature secret = .ok true) :
    signEvent H payload secret = .ok (providedDigest signature) := by
  obtain ⟨expected, hexpected, hcompare⟩ := bind_eq_ok.mp h
  rw [hexpected, compareDigest_eq_true hcompare]

variable [PyFloat F] {H : Digest} {secret : Text}

/-- Only what carries its signature is admitted. -/
theorem admitEvent_verified {c : EventCall T} {payload : Fields F}
    (h : admitEvent H secret c = .ok payload) :
    signEvent H c.raw secret = .ok (providedDigest c.signature) := by
  obtain ⟨-, -, h⟩ := bind_eq_ok.mp h
  split_ifs at h
  obtain ⟨verified, hverified, h⟩ := bind_eq_ok.mp h
  cases verified with
  | false => cases h
  | true => exact verifyEventSignature_eq_true hverified

/-- Everything a call can do. -/
theorem ingestEvent_cases (H : Digest) (secret : Text) (rows : ConnectorEvents T) (c : EventCall T) :
    (∃ e, admitEvent (F := F) H secret c = .error e ∧
      ingestEvent (F := F) H secret rows c = (rows, .error (.other e))) ∨
    ∃ payload : Fields F, admitEvent H secret c = .ok payload ∧
      (ingestEvent (F := F) H secret rows c).1 =
        (ConnectorEventStore.reserve rows (c.reservation H)).1 ∧
      (isAccepted (ingestEvent (F := F) H secret rows c).2 = true ↔
        (ConnectorEventStore.reserve rows (c.reservation H)).2 = .ok true) := by
  have hduplicate : ¬ (lit "duplicate" == lit "accepted") = true := by decide
  unfold ingestEvent
  cases hverified : admitEvent (F := F) H secret c with
  | error e => exact .inl ⟨e, rfl, rfl⟩
  | ok payload =>
    refine .inr ⟨payload, rfl, ?_⟩
    obtain ⟨after, e | accepted⟩ := ConnectorEventStore.reserve rows (c.reservation H)
    · exact ⟨rfl, iff_of_false nofun nofun⟩
    · refine ⟨rfl, ?_⟩
      cases accepted with
      | true => exact iff_of_true rfl rfl
      | false => exact iff_of_false hduplicate nofun

/-- A bound identity stays bound. -/
theorem bound_ingestEvent {rows : ConnectorEvents T} {identity : Text × Text}
    (h : bindings rows identity ≠ none) (c : EventCall T) :
    bindings (ingestEvent (F := F) H secret rows c).1 identity ≠ none := by
  rcases ingestEvent_cases (F := F) H secret rows c with
    ⟨e, -, herror⟩ | ⟨payload, -, hrows, -⟩
  · rw [herror]
    exact h
  · rw [hrows]
    exact ConnectorEventStore.bound_reserve h _

/-- What is accepted is signed, and its identity was free and is bound from then on. -/
theorem isAccepted_ingestEvent {rows : ConnectorEvents T} {c : EventCall T}
    (h : isAccepted (ingestEvent (F := F) H secret rows c).2 = true) :
    signEvent H c.raw secret = .ok (providedDigest c.signature) ∧
      bindings rows c.identity = none ∧
      bindings (ingestEvent (F := F) H secret rows c).1 c.identity ≠ none := by
  rcases ingestEvent_cases (F := F) H secret rows c with
    ⟨e, -, herror⟩ | ⟨payload, hverified, hrows, haccepted⟩
  · rw [herror] at h
    cases h
  · have hreserved := haccepted.mp h
    have hvalid : (c.reservation H).Valid := by
      by_contra hinvalid
      exact ConnectorEventStore.reserve_invalid hinvalid hreserved
    obtain ⟨hanswer, hbindings⟩ := ConnectorEventStore.reserve_spec rows hvalid
    rw [hanswer, ofVerdict_eq_true, register.answer_eq_accepted] at hreserved
    refine ⟨admitEvent_verified hverified, hreserved, ?_⟩
    have hkey : (c.reservation H).binding.1 = c.identity := rfl
    rw [hrows, hbindings, register.next_apply, if_pos hkey]
    simp

/-- Whatever calls come in, with the signatures of some deliveries: an event is accepted only
with a payload that was delivered, and once for each source and event id. -/
theorem accepted_only_signed {deliveries : List SignedDelivery} {calls : List (EventCall T)}
    (hcaptured : Captured H secret deliveries calls) (rows : ConnectorEvents T) :
    (∀ earlier c later, calls = earlier ++ c :: later →
      isAccepted ((ingestion (F := F) H secret).answer
        ((ingestion (F := F) H secret).run rows earlier) c) = true →
          ∃ d ∈ deliveries, d.payload = c.raw) ∧
    ∀ identity, (calls.zip ((ingestion (F := F) H secret).answers rows calls)).countP
      (fun p => p.1.identity = identity && isAccepted p.2) ≤ 1 := by
  constructor
  · rintro earlier c later rfl haccepted
    have hc : c ∈ earlier ++ c :: later := by simp
    obtain ⟨hsigned, -⟩ := isAccepted_ingestEvent haccepted
    obtain ⟨d, hd, hgiven⟩ := hcaptured.unforged c hc hsigned
    exact ⟨d, hd, hcaptured.collisionFree c hc d hd _ hgiven hsigned⟩
  · intro identity
    refine Machine.countP_answers_le_one
      (p := fun c answer => c.identity = identity && isAccepted answer)
      (I := fun rows => bindings rows identity ≠ none) ?_ ?_ ?_ rows calls
    · exact fun rows c h => bound_ingestEvent h c
    · intro rows c hbound
      by_contra haccepted
      obtain ⟨hidentity, haccepted⟩ := Bool.and_eq_true_iff.mp (Bool.not_eq_false _ ▸ haccepted)
      obtain ⟨-, hfree, -⟩ := isAccepted_ingestEvent haccepted
      exact hbound (of_decide_eq_true hidentity ▸ hfree)
    · intro rows c haccepted
      obtain ⟨hidentity, haccepted⟩ := Bool.and_eq_true_iff.mp haccepted
      obtain ⟨-, -, hbound⟩ := isAccepted_ingestEvent haccepted
      exact of_decide_eq_true hidentity ▸ hbound

/-! ### What is not refused -/

theorem isSha256Digest_hexdigest (H : Digest) (bytes : Bytes) :
    isSha256Digest (H.hexdigest bytes) = true := by
  rw [isSha256Digest, H.hexdigest_length, Bool.and_eq_true, List.all_eq_true]
  exact ⟨rfl, H.isLowerHex_hexdigest bytes⟩

/-- A digest is ASCII and does not begin with the prefix. -/
theorem verifyEventSignature_signEvent {payload : Bytes} {signature : Text}
    (h : signEvent H payload secret = .ok signature) :
    verifyEventSignature H payload signature secret = .ok true := by
  obtain ⟨key, -, hsigned⟩ := bind_eq_ok.mp h
  obtain rfl := Except.ok.inj hsigned
  have hhex := isLowerHex_hmacHex H key payload
  have hplain : providedDigest (hmacHex H key payload) = hmacHex H key payload := by
    refine removeprefix_of_not ?_
    rintro ⟨rest, hrest⟩
    have hs := hhex (ofChar 's') (by rw [← hrest]; exact List.mem_append_left _ (by decide))
    exact absurd hs (by decide)
  have hascii : ((hmacHex H key payload).all fun c => decide (c.val < 128)) = true := by
    rw [List.all_eq_true]
    intro c hc
    have hlower := hhex c hc
    simp only [isLowerHex, Bool.or_eq_true, Bool.and_eq_true, decide_eq_true_eq] at hlower ⊢
    omega
  rw [verifyEventSignature, h]
  change compareDigest _ _ = _
  rw [hplain, compareDigest, hascii]
  simp

theorem decodePayload_eq_ok {raw : Bytes} {text : Text} {payload : Fields F}
    (hdecode : decodeUtf8 raw = .ok text) (hloads : loads text = .ok (.obj payload)) :
    decodePayload raw = .ok payload := by
  have hboth : (decodeUtf8 raw >>= loads : Except PyError (Json F)) = .ok (.obj payload) :=
    bind_eq_ok.mpr ⟨text, hdecode, hloads⟩
  rw [decodePayload, hboth]

theorem admitEvent_eq_ok {c : EventCall T} {payload : Fields F}
    (hidentity : validateConnectorEventIdentity c.eventId c.source none = .ok ())
    (hsize : ¬ c.maxBytes < c.raw.length)
    (hverified : verifyEventSignature H c.raw c.signature secret = .ok true)
    (hpayload : decodePayload c.raw = .ok payload) : admitEvent H secret c = .ok payload := by
  refine bind_eq_ok.mpr ⟨(), hidentity, ?_⟩
  rw [if_neg hsize]
  exact bind_eq_ok.mpr ⟨true, hverified, hpayload⟩

/-- A call that is admitted under a free identity is accepted. -/
theorem isAccepted_of_admitEvent {rows : ConnectorEvents T} {c : EventCall T} {payload : Fields F}
    (hverified : admitEvent H secret c = .ok payload) (hfree : bindings rows c.identity = none) :
    isAccepted (ingestEvent (F := F) H secret rows c).2 = true := by
  obtain ⟨⟨⟩, hidentity, -⟩ := bind_eq_ok.mp hverified
  obtain ⟨hsource, heventId, -⟩ := validateConnectorEventIdentity_eq_ok.mp hidentity
  have hvalid : (c.reservation H).Valid := by
    refine validateConnectorEventIdentity_eq_ok.mpr ⟨hsource, heventId, ?_⟩
    rintro hash ⟨⟩
    exact isSha256Digest_hexdigest H c.raw
  rcases ingestEvent_cases (F := F) H secret rows c with
    ⟨e, herror, -⟩ | ⟨-, -, -, haccepted⟩
  · rw [hverified] at herror
    cases herror
  · rw [haccepted, (ConnectorEventStore.reserve_spec rows hvalid).1, ofVerdict_eq_true,
      register.answer_eq_accepted]
    exact hfree

/-! ### A captured event -/

/-- The payload that `json.dumps` makes of one field. -/
def capturedFields : Fields Tick := [(lit "asset_id", .str (lit "APP-1"))]

def capturedPayload : Bytes := ((Json.obj capturedFields).sortKeys.render compact).map (UInt8.ofNat ·.val)

def connectorSecret : Text := lit "connector-secret"

/-- The event that the holder of the secret delivered. -/
def capturedDelivery : SignedDelivery := ⟨lit "siem", lit "evt-1", capturedPayload⟩

/-- Its payload and signature, from another source. -/
def redirectedCall : EventCall ℤ where
  raw := capturedPayload
  source := lit "edr"
  eventId := lit "evt-1"
  signature := hmacHex sha256 (connectorSecret.map (UInt8.ofNat ·.val)) capturedPayload
  now := 1

theorem signEvent_captured : signEvent sha256 capturedPayload connectorSecret =
    .ok (hmacHex sha256 (connectorSecret.map (UInt8.ofNat ·.val)) capturedPayload) := by
  have hkey : encodeUtf8 connectorSecret = .ok (connectorSecret.map (UInt8.ofNat ·.val)) := by decide
  rw [signEvent, hkey]
  rfl

theorem decodePayload_captured : decodePayload capturedPayload = .ok (sortDict capturedFields) := by
  have hdumps : dumps compact (.obj capturedFields) =
      .ok ((Json.obj capturedFields).sortKeys.render compact) := by
    rw [dumps, if_pos (by decide)]
  have hbytes : encodeUtf8 ((Json.obj capturedFields).sortKeys.render compact) =
      .ok capturedPayload := by decide +kernel
  have hloads := loads_dumps (by decide +kernel) hdumps
  rw [sortKeys_obj] at hloads
  exact decodePayload_eq_ok (decodeUtf8_encodeUtf8 hbytes) hloads

theorem captured_redirected : Captured sha256 connectorSecret [capturedDelivery] [redirectedCall] where
  unforged c hc hsigned := by
    obtain rfl := List.mem_singleton.mp hc
    exact ⟨capturedDelivery, List.mem_singleton_self _, hsigned⟩
  collisionFree c hc d hd _ _ _ := by
    obtain rfl := List.mem_singleton.mp hc
    obtain rfl := List.mem_singleton.mp hd
    rfl

theorem admitEvent_redirected :
    admitEvent sha256 connectorSecret redirectedCall = .ok (sortDict capturedFields) := by
  have hsize : ¬ (1048576 : ℤ) < capturedPayload.length := by decide +kernel
  exact admitEvent_eq_ok (by decide) hsize (verifyEventSignature_signEvent signEvent_captured)
    decodePayload_captured

theorem isAccepted_redirected : isAccepted ((ingestion (F := Tick) sha256 connectorSecret).answer
    Table.empty redirectedCall) = true := by
  have haccepted : isAccepted (ingestEvent (F := Tick) sha256 connectorSecret Table.empty
      redirectedCall).2 = true := isAccepted_of_admitEvent admitEvent_redirected rfl
  exact haccepted

/-- The event is accepted from a source that it was never delivered for. -/
theorem accepted_undelivered :
    Captured sha256 connectorSecret [capturedDelivery] [redirectedCall] ∧
      isAccepted ((ingestion (F := Tick) sha256 connectorSecret).answer Table.empty
        redirectedCall) = true ∧
      ¬ ∃ d ∈ [capturedDelivery], d.source = redirectedCall.source ∧
        d.eventId = redirectedCall.eventId ∧ d.payload = redirectedCall.raw := by
  refine ⟨captured_redirected, isAccepted_redirected, ?_⟩
  rintro ⟨d, hd, hsource, -⟩
  obtain rfl := List.mem_singleton.mp hd
  exact absurd hsource (by decide)

/-- Its payload was delivered all the same, and it is accepted once. -/
theorem accepted_only_signed_redirected :
    (∃ d ∈ [capturedDelivery], d.payload = redirectedCall.raw) ∧
      ([redirectedCall].zip ((ingestion (F := Tick) sha256 connectorSecret).answers Table.empty
        [redirectedCall])).countP
          (fun p => p.1.identity = (lit "edr", lit "evt-1") && isAccepted p.2) ≤ 1 :=
  ⟨(accepted_only_signed captured_redirected Table.empty).1 [] redirectedCall [] rfl
      isAccepted_redirected,
    (accepted_only_signed captured_redirected Table.empty).2 (lit "edr", lit "evt-1")⟩

end SentinelGRC.Connectors
