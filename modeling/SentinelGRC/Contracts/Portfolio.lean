import SentinelGRC.Contracts.Fields

/-!
The contracts of asset contexts and of remediation tickets. A ticket has three
timestamps, read in turn; the order of the last two against the first is checked in UTC.
-/

namespace SentinelGRC.Contracts

open Python Json

variable {F : Type}

/-! ### Checks -/

/-- `_shape`. -/
def shape (payload : Json F) (label : Text) (allowed required : List Text) :
    Except PyError (Fields F) :=
  match payload with
  | .obj fields => do
    checkShape label allowed required fields
    return fields
  | _ => .error (.valueError (label ++ lit " must be an object"))

/-- `_identifier`. -/
def identifier (payload : Fields F) (name label : Text) : Except PyError Text := do
  let value ← text payload name 128 label
  if !isIdentifier value then .error (invalid label name) else .ok value

/-- `_source_identifier`. -/
def sourceIdentifier (payload : Fields F) (label : Text) : Except PyError Text := do
  let value ← identifier payload (lit "source") label
  if !isSourceIdentifier value then
    .error (.valueError (label ++ lit " source must use canonical lowercase"))
  else .ok value

/-- The instant that a timestamp field names. -/
def instant (payload : Fields F) (name label : Text) : Except PyError AwareDatetime := do
  let value ← text payload name 64 label
  parseRfc3339 (.str value : Json F) label name

/-- `_timestamp`; the text of a stored timestamp is `isoformatZ` of what this returns. -/
def timestamp (payload : Fields F) (name label : Text) : Except PyError UtcDatetime := do
  let parsed ← instant payload name label
  parsed.astimezone

/-- The membership test of a fixed set of words. -/
def checkChoice (value : Text) (choices : List Text) (name label : Text) : Except PyError Unit :=
  if value ∉ choices then .error (invalid label name) else .ok ()

theorem valueErrorsOnly_shape (payload : Json F) (label : Text) (allowed required : List Text) :
    ValueErrorsOnly (shape payload label allowed required) := by
  unfold shape
  split
  · exact (valueErrorsOnly_checkShape _ _ _ _).bind fun _ _ => raises_ok _
  · exact valueErrorsOnly_valueError _

theorem valueErrorsOnly_identifier (payload : Fields F) (name label : Text) :
    ValueErrorsOnly (identifier payload name label) := by
  refine (valueErrorsOnly_text _ _ _ _).bind fun value _ => ?_
  exact valueErrorsOnly_ite.mpr fun _ => raises_ok _

theorem valueErrorsOnly_sourceIdentifier (payload : Fields F) (label : Text) :
    ValueErrorsOnly (sourceIdentifier payload label) := by
  refine (valueErrorsOnly_identifier _ _ _).bind fun value _ => ?_
  exact valueErrorsOnly_ite.mpr fun _ => raises_ok _

theorem valueErrorsOnly_instant (payload : Fields F) (name label : Text) :
    ValueErrorsOnly (instant payload name label) :=
  (valueErrorsOnly_text _ _ _ _).bind fun _ _ => valueErrorsOnly_parseRfc3339 _ _ _

theorem valueErrorsOnly_checkChoice (value : Text) (choices : List Text) (name label : Text) :
    ValueErrorsOnly (checkChoice value choices name label) :=
  valueErrorsOnly_ite.mpr fun _ => raises_ok ()

theorem valueErrorsOnly_timestamp (payload : Fields F) (name label : Text) :
    ValueErrorsOnly (timestamp payload name label) ↔
      ∀ d, instant payload name label = .ok d → d.InRange := by
  unfold timestamp
  refine (valueErrorsOnly_instant _ _ _).bind_iff.trans ?_
  exact forall₂_congr fun d _ => valueErrorsOnly_astimezone d

/-- Once an instant is in range, what comes after its timestamp is computed. -/
theorem valueErrorsOnly_after {α : Type} {payload : Fields F} {name label : Text}
    {f : UtcDatetime → Except PyError α}
    (h : ValueErrorsOnly (timestamp payload name label >>= f)) {d : AwareDatetime}
    (hd : instant payload name label = .ok d) : d.InRange ∧ ∃ u, ValueErrorsOnly (f u) := by
  obtain ⟨hstamp, hrest⟩ := raises_bind.mp h
  have hrange := (valueErrorsOnly_timestamp payload name label).mp hstamp d hd
  rcases d.astimezone_cases with ⟨-, u, hu⟩ | ⟨hout, -⟩
  · exact ⟨hrange, u, hrest u (bind_eq_ok.mpr ⟨d, hd, hu⟩)⟩
  · exact absurd hrange hout

/-! ### Asset contexts -/

def assetLabel : Text := lit "asset context"

def assetSchemaVersion : Text := lit "asset_context.v1"

/-- `ASSET_REQUIRED`. -/
def assetRequired : List Text :=
  [lit "schema_version", lit "source", lit "source_asset_id", lit "observed_at", lit "asset_id",
    lit "owner", lit "criticality", lit "status", lit "evidence_refs"]

/-- `ASSET_ALLOWED`. -/
def assetAllowed : List Text := assetRequired ++ [lit "hostname"]

def criticalities : List Text := [lit "low", lit "medium", lit "high", lit "critical"]

def assetStatuses : List Text := [lit "active", lit "inactive", lit "retired", lit "unknown"]

structure AssetIdentity where
  source : Text
  sourceAssetId : Text
  assetId : Text
  owner : Text

structure AssetContext where
  contextId : Text
  schemaVersion : Text
  source : Text
  sourceAssetId : Text
  assetId : Text
  hostname : Option Text
  owner : Text
  criticality : Text
  status : Text
  observedAt : Text
  evidenceRefs : List Text

variable [PyFloat F]

/-- The checks that an asset context passes before its timestamp is read. -/
def assetIdentity (payload : Json F) : Except PyError (Fields F × AssetIdentity) := do
  let value ← shape payload assetLabel assetAllowed assetRequired
  if !(get value (lit "schema_version")).pyEq (.str assetSchemaVersion) then
    .error (.valueError (lit "asset context schema_version must be asset_context.v1"))
  else do
    let source ← sourceIdentifier value assetLabel
    let sourceAssetId ← identifier value (lit "source_asset_id") assetLabel
    let assetId ← identifier value (lit "asset_id") assetLabel
    let owner ← identifier value (lit "owner") assetLabel
    return (value, ⟨source, sourceAssetId, assetId, owner⟩)

/-- `normalize_asset_context_v1`. -/
def normalizeAssetContextV1 (H : Digest) (payload : Json F) : Except PyError AssetContext := do
  let (value, identity) ← assetIdentity payload
  let observedAt ← timestamp value (lit "observed_at") assetLabel
  let criticality ← text value (lit "criticality") 16 assetLabel
  let status ← text value (lit "status") 16 assetLabel
  checkChoice criticality criticalities (lit "criticality") assetLabel
  checkChoice status assetStatuses (lit "status") assetLabel
  let hostname ← optionalText value (lit "hostname") 255 assetLabel
  let references ← evidenceRefs (get value (lit "evidence_refs")) assetLabel
  let contextId ← contractId H "ASSET-CTX-"
    [assetSchemaVersion, identity.source, identity.sourceAssetId, identity.assetId]
  return ⟨contextId, assetSchemaVersion, identity.source, identity.sourceAssetId, identity.assetId,
    hostname, identity.owner, criticality, status, observedAt.isoformatZ, references⟩

theorem valueErrorsOnly_assetIdentity (payload : Json F) :
    ValueErrorsOnly (assetIdentity payload) := by
  refine (valueErrorsOnly_shape _ _ _ _).bind fun value _ => ?_
  refine valueErrorsOnly_ite.mpr fun _ => ?_
  refine (valueErrorsOnly_sourceIdentifier _ _).bind fun source _ => ?_
  refine (valueErrorsOnly_identifier _ _ _).bind fun sourceAssetId _ => ?_
  refine (valueErrorsOnly_identifier _ _ _).bind fun assetId _ => ?_
  exact (valueErrorsOnly_identifier _ _ _).bind fun owner _ => raises_ok _

/-- The asset context passes the checks before its timestamp, which denotes an instant. -/
def AssetDated (payload : Json F) (d : AwareDatetime) : Prop :=
  ∃ value identity, assetIdentity payload = .ok (value, identity) ∧
    instant value (lit "observed_at") assetLabel = .ok d

/-- An asset context is refused with a `ValueError` or accepted, unless its instant is out of
range. -/
theorem valueErrorsOnly_normalizeAssetContextV1 (H : Digest) (payload : Json F) :
    ValueErrorsOnly (normalizeAssetContextV1 H payload) ↔
      ∀ d, AssetDated payload d → d.InRange := by
  unfold normalizeAssetContextV1
  refine (valueErrorsOnly_assetIdentity payload).bind_iff.trans ?_
  constructor
  · rintro h d ⟨value, identity, hidentity, hd⟩
    exact (valueErrorsOnly_timestamp _ _ _).mp (raises_bind.mp (h _ hidentity)).1 d hd
  · rintro h ⟨value, identity⟩ hidentity
    refine Raises.bind ?_ fun observedAt _ => ?_
    · refine (valueErrorsOnly_timestamp _ _ _).mpr fun d hd => ?_
      exact h d ⟨value, identity, hidentity, hd⟩
    · refine (valueErrorsOnly_text _ _ _ _).bind fun criticality _ => ?_
      refine (valueErrorsOnly_text _ _ _ _).bind fun status _ => ?_
      refine (valueErrorsOnly_checkChoice _ _ _ _).bind fun _ _ => ?_
      refine (valueErrorsOnly_checkChoice _ _ _ _).bind fun _ _ => ?_
      refine (valueErrorsOnly_optionalText _ _ _ _).bind fun hostname _ => ?_
      refine (valueErrorsOnly_evidenceRefs _ _).bind fun references _ => ?_
      exact (valueErrorsOnly_contractId _ _ _).bind fun _ _ => raises_ok _

/-! ### Remediation tickets -/

def ticketLabel : Text := lit "remediation ticket"

def ticketSchemaVersion : Text := lit "remediation_ticket.v1"

/-- `TICKET_ALLOWED`, all of them required. -/
def ticketFields : List Text :=
  [lit "schema_version", lit "source", lit "source_ticket_id", lit "finding_id", lit "asset_id",
    lit "owner", lit "status", lit "priority", lit "created_at", lit "updated_at", lit "due_at",
    lit "evidence_refs"]

def ticketStatuses : List Text :=
  [lit "new", lit "assigned", lit "in_progress", lit "on_hold", lit "resolved", lit "closed"]

def ticketPriorities : List Text := [lit "P1", lit "P2", lit "P3", lit "P4"]

structure TicketIdentity where
  source : Text
  sourceTicketId : Text
  findingId : Text
  assetId : Text
  owner : Text
  status : Text
  priority : Text

structure RemediationTicket where
  ticketContextId : Text
  schemaVersion : Text
  identity : TicketIdentity
  createdAt : Text
  updatedAt : Text
  dueAt : Text
  evidenceRefs : List Text

/-- The checks that a ticket passes before its timestamps are read. -/
def ticketIdentity (payload : Json F) : Except PyError (Fields F × TicketIdentity) := do
  let value ← shape payload ticketLabel ticketFields ticketFields
  if !(get value (lit "schema_version")).pyEq (.str ticketSchemaVersion) then
    .error (.valueError (lit "remediation ticket schema_version must be remediation_ticket.v1"))
  else do
    let source ← sourceIdentifier value ticketLabel
    let sourceTicketId ← identifier value (lit "source_ticket_id") ticketLabel
    let findingId ← identifier value (lit "finding_id") ticketLabel
    let assetId ← identifier value (lit "asset_id") ticketLabel
    let owner ← identifier value (lit "owner") ticketLabel
    let status ← text value (lit "status") 32 ticketLabel
    let priority ← text value (lit "priority") 2 ticketLabel
    checkChoice status ticketStatuses (lit "status") ticketLabel
    checkChoice priority ticketPriorities (lit "priority") ticketLabel
    return (value, ⟨source, sourceTicketId, findingId, assetId, owner, status, priority⟩)

/-- An instant that may not come before the creation. -/
def checkOrder (created later : UtcDatetime) (name : String) : Except PyError Unit :=
  if later.key < created.key then
    .error (.valueError (lit "remediation ticket " ++ lit name ++ lit " cannot precede created_at"))
  else .ok ()

/-- The three timestamps of a ticket. -/
structure TicketTimes where
  createdAt : UtcDatetime
  updatedAt : UtcDatetime
  dueAt : UtcDatetime

def ticketTimes (value : Fields F) : Except PyError TicketTimes := do
  let createdAt ← timestamp value (lit "created_at") ticketLabel
  let updatedAt ← timestamp value (lit "updated_at") ticketLabel
  let dueAt ← timestamp value (lit "due_at") ticketLabel
  return ⟨createdAt, updatedAt, dueAt⟩

/-- `normalize_remediation_ticket_v1`. -/
def normalizeRemediationTicketV1 (H : Digest) (payload : Json F) :
    Except PyError RemediationTicket := do
  let (value, identity) ← ticketIdentity payload
  let times ← ticketTimes value
  checkOrder times.createdAt times.updatedAt "updated_at"
  checkOrder times.createdAt times.dueAt "due_at"
  let references ← evidenceRefs (get value (lit "evidence_refs")) ticketLabel
  let ticketContextId ← contractId H "TICKET-CTX-"
    [ticketSchemaVersion, identity.source, identity.sourceTicketId, identity.findingId]
  return ⟨ticketContextId, ticketSchemaVersion, identity, times.createdAt.isoformatZ,
    times.updatedAt.isoformatZ, times.dueAt.isoformatZ, references⟩

theorem valueErrorsOnly_ticketIdentity (payload : Json F) :
    ValueErrorsOnly (ticketIdentity payload) := by
  refine (valueErrorsOnly_shape _ _ _ _).bind fun value _ => ?_
  refine valueErrorsOnly_ite.mpr fun _ => ?_
  refine (valueErrorsOnly_sourceIdentifier _ _).bind fun source _ => ?_
  refine (valueErrorsOnly_identifier _ _ _).bind fun sourceTicketId _ => ?_
  refine (valueErrorsOnly_identifier _ _ _).bind fun findingId _ => ?_
  refine (valueErrorsOnly_identifier _ _ _).bind fun assetId _ => ?_
  refine (valueErrorsOnly_identifier _ _ _).bind fun owner _ => ?_
  refine (valueErrorsOnly_text _ _ _ _).bind fun status _ => ?_
  refine (valueErrorsOnly_text _ _ _ _).bind fun priority _ => ?_
  refine (valueErrorsOnly_checkChoice _ _ _ _).bind fun _ _ => ?_
  exact (valueErrorsOnly_checkChoice _ _ _ _).bind fun _ _ => raises_ok _

/-- The instants that a ticket's timestamps denote, as far as they are read. -/
inductive TimesDated (value : Fields F) : AwareDatetime → Prop
  | created {c : AwareDatetime} (hc : instant value (lit "created_at") ticketLabel = .ok c) :
      TimesDated value c
  | updated {c u : AwareDatetime} (hc : instant value (lit "created_at") ticketLabel = .ok c)
      (hu : instant value (lit "updated_at") ticketLabel = .ok u) : TimesDated value u
  | due {c u d : AwareDatetime} (hc : instant value (lit "created_at") ticketLabel = .ok c)
      (hu : instant value (lit "updated_at") ticketLabel = .ok u)
      (hd : instant value (lit "due_at") ticketLabel = .ok d) : TimesDated value d

omit [PyFloat F] in
theorem valueErrorsOnly_ticketTimes (value : Fields F) :
    ValueErrorsOnly (ticketTimes value) ↔ ∀ d, TimesDated value d → d.InRange := by
  unfold ticketTimes
  constructor
  · intro h d hdated
    cases hdated with
    | created hc => exact (valueErrorsOnly_after h hc).1
    | updated hc hu =>
      obtain ⟨-, createdAt, hrest⟩ := valueErrorsOnly_after h hc
      exact (valueErrorsOnly_after hrest hu).1
    | due hc hu hd =>
      obtain ⟨-, createdAt, hrest⟩ := valueErrorsOnly_after h hc
      obtain ⟨-, updatedAt, hrest⟩ := valueErrorsOnly_after hrest hu
      exact (valueErrorsOnly_after hrest hd).1
  · intro h
    refine raises_bind.mpr ⟨?_, fun createdAt hcreatedAt => ?_⟩
    · exact (valueErrorsOnly_timestamp _ _ _).mpr fun c hc => h c (.created hc)
    obtain ⟨c, hc, -⟩ := bind_eq_ok.mp hcreatedAt
    refine raises_bind.mpr ⟨?_, fun updatedAt hupdatedAt => ?_⟩
    · exact (valueErrorsOnly_timestamp _ _ _).mpr fun u hu => h u (.updated hc hu)
    obtain ⟨u, hu, -⟩ := bind_eq_ok.mp hupdatedAt
    refine raises_bind.mpr ⟨?_, fun dueAt _ => raises_ok _⟩
    exact (valueErrorsOnly_timestamp _ _ _).mpr fun d hd => h d (.due hc hu hd)

/-- The ticket passes the checks before its timestamps, one of which is read and denotes `d`. -/
def TicketDated (payload : Json F) (d : AwareDatetime) : Prop :=
  ∃ value identity, ticketIdentity payload = .ok (value, identity) ∧ TimesDated value d

/-- A ticket is refused with a `ValueError` or accepted, unless one of its instants is out of
range. -/
theorem valueErrorsOnly_normalizeRemediationTicketV1 (H : Digest) (payload : Json F) :
    ValueErrorsOnly (normalizeRemediationTicketV1 H payload) ↔
      ∀ d, TicketDated payload d → d.InRange := by
  unfold normalizeRemediationTicketV1
  refine (valueErrorsOnly_ticketIdentity payload).bind_iff.trans ?_
  constructor
  · rintro h d ⟨value, identity, hidentity, hd⟩
    exact (valueErrorsOnly_ticketTimes value).mp (raises_bind.mp (h _ hidentity)).1 d hd
  · rintro h ⟨value, identity⟩ hidentity
    refine Raises.bind ?_ fun times _ => ?_
    · refine (valueErrorsOnly_ticketTimes value).mpr fun d hd => ?_
      exact h d ⟨value, identity, hidentity, hd⟩
    · refine Raises.bind ?_ fun _ _ => ?_
      · exact valueErrorsOnly_ite.mpr fun _ => raises_ok ()
      refine Raises.bind ?_ fun _ _ => ?_
      · exact valueErrorsOnly_ite.mpr fun _ => raises_ok ()
      refine (valueErrorsOnly_evidenceRefs _ _).bind fun references _ => ?_
      exact (valueErrorsOnly_contractId _ _ _).bind fun _ _ => raises_ok _

end SentinelGRC.Contracts
