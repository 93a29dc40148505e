import SentinelGRC.Audit.Verifiable
import SentinelGRC.Delivery.Exports

/-!
What the audit archive accepts. `serialize_event` checks the fields of an event and its
chain hash, and writes the event as canonical JSON under a key made of its fields.
-/

namespace SentinelGRC.Delivery

open Python Json

variable {F : Type}

/-- What `serialize_event` raises. -/
inductive ArchiveError
  | integrity (message : Text)
  | raised (error : PyError)

def maxAuditEventBytes : ℕ := 256 * 1024

def requiredAuditEventFields : List Text :=
  [lit "event_id", lit "finding_id", lit "event_sequence", lit "event_type", lit "actor_id",
    lit "actor_role", lit "auth_method", lit "occurred_at", lit "details", lit "previous_hash",
    lit "event_hash"]

def auditScalarFields : List String := ["event_type", "actor_id", "actor_role", "auth_method"]

def auditChainFields : List Text :=
  [lit "finding_id", lit "event_type", lit "actor_id", lit "actor_role", lit "auth_method",
    lit "occurred_at", lit "details", lit "previous_hash"]

/-! ### Checks -/

/-- `[a-f0-9]` a number of times, the whole text. -/
def isHex (n : ℕ) (t : Text) : Bool := decide (t.length = n) && t.all isLowerHex

/-- A text of at most 128 characters that is not blank. -/
def isAuditScalar (t : Text) : Bool := !blank t && decide (t.length ≤ 128)

def auditInvalid (name : String) : PyError := .valueError (lit "audit " ++ lit name ++ lit " is invalid")

/-- A field that must hold a text. -/
def auditText (name : String) (check : Text → Bool) : Json F → Except PyError Text
  | .str t => if check t then .ok t else .error (auditInvalid name)
  | _ => .error (auditInvalid name)

theorem auditText_eq_ok {name : String} {check : Text → Bool} {v : Json F} {t : Text} :
    auditText name check v = .ok t ↔ v = .str t ∧ check t = true := by
  unfold auditText
  split
  · rename_i u
    split_ifs with hcheck
    · constructor
      · rintro ⟨⟩
        exact ⟨rfl, hcheck⟩
      · rintro ⟨⟨⟩, -⟩
        rfl
    · constructor
      · intro h
        cases h
      · rintro ⟨⟨⟩, h⟩
        exact absurd h hcheck
  · rename_i hv
    constructor
    · intro h
      cases h
    · rintro ⟨rfl, -⟩
      exact absurd rfl (hv t)

/-- `_validate_event_schema`. -/
def validateEventSchema : Json F → Except PyError (Fields F)
  | .obj event =>
    if (∀ k ∈ event.map Prod.fst, k ∈ requiredAuditEventFields) ∧
        ∀ k ∈ requiredAuditEventFields, k ∈ event.map Prod.fst then .ok event
    else .error (.valueError (lit "audit event has an invalid schema"))
  | _ => .error (.valueError (lit "audit event must be an object"))

structure EventIdentity where
  eventId : Text
  eventHash : Text
  findingId : Text
  sequence : ℕ

/-- `_validate_event_identity`. -/
def validateEventIdentity (event : Fields F) : Except PyError EventIdentity := do
  let eventId ← auditText "event_id" (isHex 32) (get event (lit "event_id"))
  let eventHash ← auditText "event_hash" (isHex 64) (get event (lit "event_hash"))
  let findingId ← auditText "finding_id" (fun t => !t.isEmpty && decide (t.length ≤ 128))
    (get event (lit "finding_id"))
  let sequence ← match get event (lit "event_sequence") with
    | .int (.ofNat (n + 1)) => .ok (n + 1)
    | _ => .error (auditInvalid "event_sequence")
  return ⟨eventId, eventHash, findingId, sequence⟩

/-- `_validate_scalar_fields`. -/
def validateScalarFields (event : Fields F) : Except PyError Unit :=
  auditScalarFields.forM fun name => do
    let _ ← auditText name isAuditScalar (get event (lit name))

/-- `_validate_payload_fields`. -/
def validatePayloadFields (event : Fields F) : Except PyError Text := do
  match get event (lit "details") with
  | .obj _ => .ok ()
  | _ => .error (.valueError (lit "audit details must be an object"))
  match get event (lit "occurred_at") with
  | .int _ | .float _ => .ok ()
  | _ => .error (auditInvalid "occurred_at")
  auditText "previous_hash" (fun t => t.isEmpty || isHex 64 t) (get event (lit "previous_hash"))

/-- An event whose own fields pass. -/
structure Identified (event : Fields F) (i : EventIdentity) : Prop where
  eventId : get event (lit "event_id") = .str i.eventId ∧ isHex 32 i.eventId = true
  eventHash : get event (lit "event_hash") = .str i.eventHash ∧ isHex 64 i.eventHash = true
  findingId : get event (lit "finding_id") = .str i.findingId ∧ i.findingId ≠ [] ∧
    i.findingId.length ≤ 128
  sequence : get event (lit "event_sequence") = .int i.sequence ∧ 1 ≤ i.sequence

theorem Identified.validate {event : Fields F} {i : EventIdentity} (h : Identified event i) :
    validateEventIdentity event = .ok i := by
  unfold validateEventIdentity
  refine bind_eq_ok.mpr ⟨_, auditText_eq_ok.mpr h.eventId, ?_⟩
  refine bind_eq_ok.mpr ⟨_, auditText_eq_ok.mpr h.eventHash, ?_⟩
  refine bind_eq_ok.mpr ⟨i.findingId, auditText_eq_ok.mpr ⟨h.findingId.1, ?_⟩, ?_⟩
  · simpa using h.findingId.2
  · obtain ⟨n, hn⟩ := Nat.exists_eq_add_of_le' h.sequence.2
    rw [h.sequence.1, hn]
    refine bind_eq_ok.mpr ⟨n + 1, rfl, ?_⟩
    rw [← hn]
    rfl

theorem validateScalarFields_eq_ok {event : Fields F} {u : Unit} :
    validateScalarFields event = .ok u ↔
      ∀ name ∈ auditScalarFields, ∃ t, get event (lit name) = .str t ∧ isAuditScalar t = true := by
  unfold validateScalarFields
  generalize auditScalarFields = names
  induction names with
  | nil => simp [pure, Except.pure]
  | cons name names ih =>
    change (_ >>= fun _ => List.forM names _) = _ ↔ _
    rw [bind_eq_ok]
    constructor
    · rintro ⟨v, hname, hrest⟩
      obtain ⟨t, ht, -⟩ := bind_eq_ok.mp hname
      exact List.forall_mem_cons.mpr ⟨⟨t, auditText_eq_ok.mp ht⟩, ih.mp hrest⟩
    · intro h
      obtain ⟨⟨t, ht⟩, hrest⟩ := List.forall_mem_cons.mp h
      exact ⟨(), bind_eq_ok.mpr ⟨t, auditText_eq_ok.mpr ht, rfl⟩, ih.mpr hrest⟩

theorem mapError_eq_ok {ε ε' α : Type} {f : ε → ε'} {x : Except ε α} {a : α} :
    x.mapError f = .ok a ↔ x = .ok a := by
  cases x <;> simp [Except.mapError]

variable [PyFloat F]

/-- `_verify_chain_hash`. -/
def verifyChainHash (H : Digest) (event : Fields F) (previousHash eventHash : Text) :
    Except ArchiveError Unit := do
  let chainBody := auditChainFields.map fun k => (k, get event k)
  let text ← (dumps compact (.obj chainBody)).mapError .raised
  let bytes ← (encodeUtf8 (previousHash ++ text)).mapError .raised
  if H.hexdigest bytes ≠ eventHash then throw (.integrity (lit "audit event chain hash is invalid"))

/-- `_serialize_content`. -/
def serializeContent (H : Digest) (event : Fields F) : Except PyError (Bytes × Text) := do
  let text ← Audit.canonicalJson (.obj event)
  let content ← encodeUtf8 text
  if content.isEmpty ∨ maxAuditEventBytes < content.length then
    throw (.valueError (lit "audit event exceeds the size limit"))
  return (content, H.hexdigest content)

/-- `_build_object_key`. -/
def buildObjectKey (H : Digest) (i : EventIdentity) : Except PyError Text := do
  let bytes ← encodeUtf8 i.findingId
  let findingDigest := H.hexdigest bytes
  return lit "events/" ++ findingDigest.take 2 ++ lit "/" ++ findingDigest ++ lit "/" ++
    (natText i.sequence).leftpad 20 (ofChar '0') ++ lit "-" ++ i.eventId ++ lit "-" ++ i.eventHash ++
    lit ".json"

/-- `serialize_event`: the content, its digest and the object key. -/
def serializeEvent (H : Digest) (event : Json F) : Except ArchiveError (Bytes × Text × Text) := do
  let event ← (validateEventSchema event).mapError .raised
  let identity ← (validateEventIdentity event).mapError .raised
  (validateScalarFields event).mapError .raised
  let previousHash ← (validatePayloadFields event).mapError .raised
  verifyChainHash H event previousHash identity.eventHash
  let (content, digest) ← (serializeContent H event).mapError .raised
  let objectKey ← (buildObjectKey H identity).mapError .raised
  return (content, digest, objectKey)

variable {H : Digest} {event : Fields F}

theorem serializeContent_ok : (∃ out, serializeContent H event = .ok out) ↔
    ∃ text content, Audit.canonicalJson (.obj event) = .ok text ∧ encodeUtf8 text = .ok content ∧
      content ≠ [] ∧ content.length ≤ maxAuditEventBytes := by
  constructor
  · rintro ⟨out, h⟩
    obtain ⟨text, htext, h⟩ := bind_eq_ok.mp h
    obtain ⟨content, hcontent, h⟩ := bind_eq_ok.mp h
    by_cases hsize : content.isEmpty = true ∨ maxAuditEventBytes < content.length
    · rw [if_pos hsize] at h
      cases h
    · rw [not_or, List.isEmpty_iff, not_lt] at hsize
      exact ⟨text, content, htext, hcontent, hsize⟩
  · rintro ⟨text, content, htext, hcontent, hne, hsize⟩
    refine ⟨(content, H.hexdigest content), ?_⟩
    refine bind_eq_ok.mpr ⟨text, htext, bind_eq_ok.mpr ⟨content, hcontent, ?_⟩⟩
    rw [if_neg (by rw [not_or, List.isEmpty_iff, not_lt]; exact ⟨hne, hsize⟩)]
    rfl

theorem verifyChainHash_eq_ok {previousHash eventHash : Text} {u : Unit} :
    verifyChainHash H event previousHash eventHash = .ok u ↔
      ∃ text bytes, dumps compact (.obj (auditChainFields.map fun k => (k, get event k))) = .ok text ∧
        encodeUtf8 (previousHash ++ text) = .ok bytes ∧ H.hexdigest bytes = eventHash := by
  constructor
  · intro h
    obtain ⟨text, htext, h⟩ := bind_eq_ok.mp h
    obtain ⟨bytes, hbytes, h⟩ := bind_eq_ok.mp h
    by_cases hhash : H.hexdigest bytes ≠ eventHash
    · rw [if_pos hhash] at h
      cases h
    · exact ⟨text, bytes, mapError_eq_ok.mp htext, mapError_eq_ok.mp hbytes, not_not.mp hhash⟩
  · rintro ⟨text, bytes, htext, hbytes, hhash⟩
    refine bind_eq_ok.mpr ⟨text, mapError_eq_ok.mpr htext, ?_⟩
    refine bind_eq_ok.mpr ⟨bytes, mapError_eq_ok.mpr hbytes, ?_⟩
    rw [if_neg (not_not.mpr hhash)]
    rfl

/-- An event passes if each of the checks does. -/
theorem serializeEvent_ok {i : EventIdentity} {previousHash : Text} {out : Bytes × Text}
    (hschema : validateEventSchema (.obj event) = .ok event) (hidentity : Identified event i)
    (hscalars : validateScalarFields event = .ok ())
    (hpayload : validatePayloadFields event = .ok previousHash)
    (hchain : verifyChainHash H event previousHash i.eventHash = .ok ())
    (hcontent : serializeContent H event = .ok out) (hscalar : Scalar i.findingId) :
    ∃ result, serializeEvent H (.obj event) = .ok result := by
  have hkey : ∃ key, buildObjectKey H i = .ok key :=
    ⟨_, bind_eq_ok.mpr ⟨_, encodeUtf8_eq_ok.mpr ⟨hscalar, rfl⟩, rfl⟩⟩
  obtain ⟨key, hkey⟩ := hkey
  refine ⟨(out.1, out.2, key), ?_⟩
  refine bind_eq_ok.mpr ⟨event, mapError_eq_ok.mpr hschema, ?_⟩
  refine bind_eq_ok.mpr ⟨i, mapError_eq_ok.mpr hidentity.validate, ?_⟩
  refine bind_eq_ok.mpr ⟨(), mapError_eq_ok.mpr hscalars, ?_⟩
  refine bind_eq_ok.mpr ⟨previousHash, mapError_eq_ok.mpr hpayload, ?_⟩
  refine bind_eq_ok.mpr ⟨(), hchain, ?_⟩
  refine bind_eq_ok.mpr ⟨out, mapError_eq_ok.mpr hcontent, ?_⟩
  exact bind_eq_ok.mpr ⟨key, mapError_eq_ok.mpr hkey, rfl⟩

/-- An event that passes has passed the check of its scalar fields. -/
theorem validateScalarFields_of_serializeEvent {result : Bytes × Text × Text}
    (h : serializeEvent H (.obj event) = .ok result) : validateScalarFields event = .ok () := by
  obtain ⟨event', hschema, h⟩ := bind_eq_ok.mp h
  obtain ⟨i, -, h⟩ := bind_eq_ok.mp h
  obtain ⟨u, hscalars, -⟩ := bind_eq_ok.mp h
  have hsame := mapError_eq_ok.mp hschema
  unfold validateEventSchema at hsame
  simp only at hsame
  split_ifs at hsame
  cases hsame
  exact mapError_eq_ok.mp hscalars

end SentinelGRC.Delivery
