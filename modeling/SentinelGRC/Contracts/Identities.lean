import SentinelGRC.Contracts.Accepted
import SentinelGRC.Python.Join

/-!
The identities that the three contracts hash. Each joins a schema version and the fields
that identify a payload with `|`, which no accepted field and no version contains, so an
identity determines its contract and its fields.
-/

namespace SentinelGRC.Contracts

open Python Json

variable {F : Type}

/-- The contracts that derive an identifier. -/
inductive Contract
  | securityAlert
  | assetContext
  | remediationTicket
  deriving DecidableEq

namespace Contract

/-- The schema version that an identity starts with. -/
def version : Contract → Text
  | securityAlert => alertSchemaVersion
  | assetContext => assetSchemaVersion
  | remediationTicket => ticketSchemaVersion

/-- The fields of an identity, in the order in which they are joined. -/
def key : Contract → List Text
  | securityAlert => [lit "source", lit "source_event_id", lit "asset_id", lit "kind"]
  | assetContext => [lit "source", lit "source_asset_id", lit "asset_id"]
  | remediationTicket => [lit "source", lit "source_ticket_id", lit "finding_id"]

/-- What the digits of the hash are put behind. -/
def idPrefix : Contract → String
  | securityAlert => "SEC-ALERT-"
  | assetContext => "ASSET-CTX-"
  | remediationTicket => "TICKET-CTX-"

/-- A field of a payload. -/
def payloadField (payload : Json F) (name : Text) : Json F :=
  match payload with
  | .obj value => get value name
  | _ => .null

/-- A field of a payload as text. -/
def textField (payload : Json F) (name : Text) : Text :=
  match payloadField payload name with
  | .str t => t
  | _ => []

def identityParts (c : Contract) (payload : Json F) : List Text :=
  c.version :: c.key.map (textField payload)

/-- The text that is hashed. -/
def identity (c : Contract) (payload : Json F) : Text :=
  List.intercalate (lit "|") (c.identityParts payload)

variable [PyFloat F]

/-- The identifier that an accepted payload gets. -/
def derivedId (c : Contract) (H : Digest) (payload : Json F) : Except PyError Text :=
  match c with
  | securityAlert => do
    let finding ← normalizeSecurityAlertV1 H payload
    return finding.findingId
  | assetContext => do
    let context ← normalizeAssetContextV1 H payload
    return context.contextId
  | remediationTicket => do
    let ticket ← normalizeRemediationTicketV1 H payload
    return ticket.ticketContextId

/-! ### Fields without a separator -/

theorem not_mem_of_isIdentifier {t : Text} (h : isIdentifier t = true) : ofChar '|' ∉ t := by
  intro hmem
  simp only [isIdentifier, identifierOf, Bool.and_eq_true] at h
  have hbar := List.all_eq_true.mp h.2 _ hmem
  exact absurd hbar (by decide)

theorem not_mem_version (c : Contract) : ofChar '|' ∉ c.version := by cases c <;> decide

theorem not_mem_kind (kind : AlertKind) : ofChar '|' ∉ kind.text := by cases kind <;> decide

omit [PyFloat F] in
theorem textField_eq {payload : Json F} {name t : Text} (h : payloadField payload name = .str t) :
    textField payload name = t := by
  rw [textField, h]

omit [PyFloat F] in
theorem textField_obj {value : Fields F} {name t : Text} (h : get value name = .str t) :
    textField (.obj value) name = t := textField_eq h

/-- What an identity says of a payload: its fields are texts without a separator, and they are
what is hashed. -/
structure Identified (c : Contract) (H : Digest) (payload : Json F) (id : Text) : Prop where
  hashed : contractId H c.idPrefix (c.identityParts payload) = .ok id
  fields : ∀ name ∈ c.key, ∃ t, payloadField payload name = .str t ∧ ofChar '|' ∉ t

theorem identified_securityAlert {H : Digest} {payload : Json F} {id : Text}
    (h : securityAlert.derivedId H payload = .ok id) : securityAlert.Identified H payload id := by
  obtain ⟨finding, hfinding, h⟩ := bind_eq_ok.mp h
  obtain rfl := Except.ok.inj h
  obtain ⟨value, kind, rfl, haccepted⟩ := normalizeSecurityAlertV1_eq_ok hfinding
  obtain ⟨sourceEventId, hsourceEventId, hisSourceEventId, hid⟩ := haccepted.sourceEventId
  constructor
  · rw [identityParts, key, List.map_cons, List.map_cons, List.map_cons, List.map_cons, List.map_nil,
      textField_obj haccepted.source, textField_obj hsourceEventId, textField_obj haccepted.assetId,
      textField_obj haccepted.kind]
    exact hid
  · simp only [key, List.forall_mem_cons]
    refine ⟨⟨_, haccepted.source, not_mem_of_isIdentifier haccepted.isSource⟩, ?_⟩
    refine ⟨⟨_, hsourceEventId, not_mem_of_isIdentifier hisSourceEventId⟩, ?_⟩
    refine ⟨⟨_, haccepted.assetId, not_mem_of_isIdentifier haccepted.isAssetId⟩, ?_⟩
    exact ⟨⟨_, haccepted.kind, not_mem_kind kind⟩, List.forall_mem_nil _⟩

theorem identified_assetContext {H : Digest} {payload : Json F} {id : Text}
    (h : assetContext.derivedId H payload = .ok id) : assetContext.Identified H payload id := by
  obtain ⟨context, hcontext, h⟩ := bind_eq_ok.mp h
  obtain rfl := Except.ok.inj h
  obtain ⟨value, rfl, haccepted⟩ := normalizeAssetContextV1_eq_ok.mp hcontext
  obtain ⟨hsource, -, hisSource⟩ := identifier_eq_ok.mp (sourceIdentifier_eq_ok.mp haccepted.source).1
  obtain ⟨hsourceAssetId, -, hisSourceAssetId⟩ := identifier_eq_ok.mp haccepted.sourceAssetId
  obtain ⟨hassetId, -, hisAssetId⟩ := identifier_eq_ok.mp haccepted.assetId
  constructor
  · rw [identityParts, key, List.map_cons, List.map_cons, List.map_cons, List.map_nil,
      textField_obj hsource, textField_obj hsourceAssetId, textField_obj hassetId]
    exact haccepted.contextId
  · simp only [key, List.forall_mem_cons]
    refine ⟨⟨_, hsource, not_mem_of_isIdentifier hisSource⟩, ?_⟩
    refine ⟨⟨_, hsourceAssetId, not_mem_of_isIdentifier hisSourceAssetId⟩, ?_⟩
    exact ⟨⟨_, hassetId, not_mem_of_isIdentifier hisAssetId⟩, List.forall_mem_nil _⟩

theorem identified_remediationTicket {H : Digest} {payload : Json F} {id : Text}
    (h : remediationTicket.derivedId H payload = .ok id) :
    remediationTicket.Identified H payload id := by
  obtain ⟨ticket, hticket, h⟩ := bind_eq_ok.mp h
  obtain rfl := Except.ok.inj h
  obtain ⟨value, rfl, haccepted⟩ := normalizeRemediationTicketV1_eq_ok.mp hticket
  obtain ⟨hsource, -, hisSource⟩ := identifier_eq_ok.mp (sourceIdentifier_eq_ok.mp haccepted.source).1
  obtain ⟨hsourceTicketId, -, hisSourceTicketId⟩ := identifier_eq_ok.mp haccepted.sourceTicketId
  obtain ⟨hfindingId, -, hisFindingId⟩ := identifier_eq_ok.mp haccepted.findingId
  constructor
  · rw [identityParts, key, List.map_cons, List.map_cons, List.map_cons, List.map_nil,
      textField_obj hsource, textField_obj hsourceTicketId, textField_obj hfindingId]
    exact haccepted.ticketContextId
  · simp only [key, List.forall_mem_cons]
    refine ⟨⟨_, hsource, not_mem_of_isIdentifier hisSource⟩, ?_⟩
    refine ⟨⟨_, hsourceTicketId, not_mem_of_isIdentifier hisSourceTicketId⟩, ?_⟩
    exact ⟨⟨_, hfindingId, not_mem_of_isIdentifier hisFindingId⟩, List.forall_mem_nil _⟩

theorem identified {c : Contract} {H : Digest} {payload : Json F} {id : Text}
    (h : c.derivedId H payload = .ok id) : c.Identified H payload id := by
  cases c with
  | securityAlert => exact identified_securityAlert h
  | assetContext => exact identified_assetContext h
  | remediationTicket => exact identified_remediationTicket h

omit [PyFloat F] in
theorem Identified.not_mem {c : Contract} {H : Digest} {payload : Json F} {id : Text}
    (h : c.Identified H payload id) : ∀ part ∈ c.identityParts payload, ofChar '|' ∉ part := by
  intro part hpart
  rcases List.mem_cons.mp hpart with rfl | hpart
  · exact not_mem_version c
  · obtain ⟨name, hname, rfl⟩ := List.mem_map.mp hpart
    obtain ⟨t, ht, hbar⟩ := h.fields name hname
    rw [textField_eq ht]
    exact hbar

/-! ### Identities -/

theorem version_injective {c d : Contract} (h : c.version = d.version) : c = d := by
  revert c d
  have hall : ∀ c ∈ [securityAlert, assetContext, remediationTicket],
      ∀ d ∈ [securityAlert, assetContext, remediationTicket], c.version = d.version → c = d := by
    decide
  intro c d h
  exact hall c (by cases c <;> simp) d (by cases d <;> simp) h

/-- What is hashed for an accepted payload is its identity, and two identities are the same
only for payloads of one contract that agree in every field of the identity. -/
theorem identities_injective {c d : Contract} {H : Digest} {a b : Json F} {r s : Text}
    (ha : c.derivedId H a = .ok r) (hb : d.derivedId H b = .ok s) :
    (contractId H c.idPrefix (c.identityParts a) = .ok r ∧
      contractId H d.idPrefix (d.identityParts b) = .ok s) ∧
    (c.identity a = d.identity b →
      c = d ∧ ∀ name ∈ c.key, payloadField a name = payloadField b name) := by
  have hfirst := identified ha
  have hsecond := identified hb
  refine ⟨⟨hfirst.hashed, hsecond.hashed⟩, fun hsame => ?_⟩
  have hparts : c.identityParts a = d.identityParts b :=
    intercalate_injective (List.cons_ne_nil _ _) (List.cons_ne_nil _ _) hfirst.not_mem
      hsecond.not_mem hsame
  obtain ⟨hversion, htexts⟩ := List.cons.inj hparts
  obtain rfl := version_injective hversion
  refine ⟨rfl, fun name hname => ?_⟩
  obtain ⟨t, ht, -⟩ := hfirst.fields name hname
  obtain ⟨t', ht', -⟩ := hsecond.fields name hname
  have htext := List.map_inj_left.mp htexts name hname
  rw [ht, ht', ← textField_eq ht, ← textField_eq ht', htext]

/-- A brute-force alert of the event `event`. -/
def eventAlert (event : String) : Json Tick :=
  .obj [(lit "schema_version", .str alertSchemaVersion), (lit "source", .str (lit "siem")),
    (lit "source_event_id", .str (lit event)),
    (lit "observed_at", .str (lit "2026-07-01T08:00:00+07:00")),
    (lit "asset_id", .str (lit "A:1")), (lit "kind", .str (lit "brute_force")),
    (lit "severity", .str (lit "high")), (lit "title", .str (lit "Brute force")),
    (lit "risk_owner", .str (lit "owner-1")), (lit "event_code", .int 4625),
    (lit "evidence_refs", .arr [.str (lit "urn:e:1")])]

/-- Two events of one source. -/
theorem identities_injective_events :
    securityAlert.identity (eventAlert "E-1") ≠ securityAlert.identity (eventAlert "E:1") := by
  obtain ⟨r, hr⟩ : ∃ r, securityAlert.derivedId sha256 (eventAlert "E-1") = .ok r :=
    exists_ok_of_isOk (by decide +kernel)
  obtain ⟨s, hs⟩ : ∃ s, securityAlert.derivedId sha256 (eventAlert "E:1") = .ok s :=
    exists_ok_of_isOk (by decide +kernel)
  intro hsame
  have hfield := ((identities_injective hr hs).2 hsame).2 (lit "source_event_id") (by decide)
  have htext : lit "E-1" = lit "E:1" := Json.str.inj hfield
  exact absurd htext (by decide)

end Contract

end SentinelGRC.Contracts
