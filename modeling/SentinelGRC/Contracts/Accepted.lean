import Mathlib.Data.List.Dedup
import SentinelGRC.Contracts.Portfolio
import SentinelGRC.Contracts.SecurityAlert

/-!
What an accepted payload is made of. Each check is described by when it passes, and a
normalizer by the checks that its payload has passed and the record it makes of them.
-/

namespace SentinelGRC.Contracts

open Python Json Governance

variable {F : Type}

/-! ### Checks -/

theorem exists_ok_of_isOk {ε α : Type} {r : Except ε α} (h : r.isOk = true) : ∃ a, r = .ok a := by
  cases r with
  | error e => cases h
  | ok a => exact ⟨a, rfl⟩

/-- A check that guards the result. -/
theorem ite_ok_eq_ok {ε α : Type} {p : Prop} [Decidable p] {e : ε} {x : Except ε α} {a : α} :
    (if p then x else .error e) = .ok a ↔ p ∧ x = .ok a := by
  split_ifs with h <;> simp [h]

/-- A gate that was passed. -/
theorem ite_none_eq_some {ε α : Type} {p : Prop} [Decidable p] {x : Except ε (Option α)} {a : α} :
    (if p then .ok none else x) = .ok (some a) ↔ ¬ p ∧ x = .ok (some a) := by
  split_ifs with h <;> simp [h]

theorem text_eq_ok {payload : Fields F} {name label t : Text} {maximum : ℕ} :
    text payload name maximum label = .ok t ↔
      get payload name = .str t ∧ isCanonicalText (.str t : Json F) maximum = true := by
  unfold text
  split
  · rename_i s hs
    rw [hs]
    split_ifs with hc
    · constructor
      · intro h
        obtain rfl := Except.ok.inj h
        exact ⟨rfl, hc⟩
      · rintro ⟨h, -⟩
        rw [Json.str.inj h]
    · constructor
      · intro h
        cases h
      · rintro ⟨h, ht⟩
        rw [Json.str.inj h] at hc
        exact absurd ht hc
  · rename_i v hv
    constructor
    · intro h
      cases h
    · rintro ⟨h, -⟩
      exact absurd h (hv t)

theorem identifier_eq_ok {payload : Fields F} {name label t : Text} :
    identifier payload name label = .ok t ↔ get payload name = .str t ∧
      isCanonicalText (.str t : Json F) 128 = true ∧ isIdentifier t = true := by
  unfold identifier
  rw [bind_eq_ok]
  constructor
  · rintro ⟨s, hs, h⟩
    obtain ⟨hid, h⟩ := ite_error_eq_ok.mp h
    obtain rfl := Except.ok.inj h
    obtain ⟨hget, hc⟩ := text_eq_ok.mp hs
    exact ⟨hget, hc, by simpa using hid⟩
  · rintro ⟨hget, hc, hid⟩
    exact ⟨t, text_eq_ok.mpr ⟨hget, hc⟩, by simp [hid]⟩

theorem sourceIdentifier_eq_ok {payload : Fields F} {label t : Text} :
    sourceIdentifier payload label = .ok t ↔
      identifier payload (lit "source") label = .ok t ∧ isSourceIdentifier t = true := by
  unfold sourceIdentifier
  rw [bind_eq_ok]
  constructor
  · rintro ⟨s, hs, h⟩
    obtain ⟨hsource, h⟩ := ite_error_eq_ok.mp h
    obtain rfl := Except.ok.inj h
    exact ⟨hs, by simpa using hsource⟩
  · rintro ⟨hs, hsource⟩
    exact ⟨t, hs, by simp [hsource]⟩

theorem checkChoice_eq_ok {value name label : Text} {choices : List Text} {u : Unit} :
    checkChoice value choices name label = .ok u ↔ value ∈ choices := by
  unfold checkChoice
  rw [ite_error_eq_ok, not_not]
  exact and_iff_left rfl

theorem shape_eq_ok {payload : Json F} {label : Text} {allowed required : List Text}
    {value : Fields F} : shape payload label allowed required = .ok value ↔
      payload = .obj value ∧ checkShape label allowed required value = .ok () := by
  cases payload with
  | obj fields =>
    simp only [shape, Json.obj.injEq, bind_eq_ok]
    constructor
    · rintro ⟨⟨⟩, hshape, h⟩
      obtain rfl := Except.ok.inj h
      exact ⟨rfl, hshape⟩
    · rintro ⟨rfl, hshape⟩
      exact ⟨(), hshape, rfl⟩
  | _ =>
    constructor
    · intro h
      cases h
    · rintro ⟨h, -⟩
      cases h

theorem sortedTexts_eq_nil {ts : List Text} : sortedTexts ts = [] ↔ ts = [] := by
  constructor
  · intro h
    have hperm := List.perm_insertionSort (fun s t => keyLe s t = true) ts
    rw [sortedTexts] at h
    rw [h] at hperm
    exact hperm.symm.eq_nil
  · rintro rfl
    rfl

/-- The keys are all allowed, and the required ones are there. -/
theorem checkShape_eq_ok {label : Text} {allowed required : List Text} {payload : Fields F} {u : Unit} :
    checkShape label allowed required payload = .ok u ↔
      (∀ k ∈ payload.map Prod.fst, k ∈ allowed) ∧ ∀ k ∈ required, k ∈ payload.map Prod.fst := by
  unfold checkShape
  rw [ite_error_eq_ok, ite_error_eq_ok, not_not, not_not, sortedTexts_eq_nil, sortedTexts_eq_nil,
    List.filter_eq_nil_iff, List.filter_eq_nil_iff]
  simp only [decide_eq_true_eq, not_not, List.mem_dedup, and_true]

theorem optionalText_eq_ok {payload : Fields F} {name label : Text} {maximum : ℕ} {o : Option Text} :
    optionalText payload name maximum label = .ok o ↔ get payload name = optionalValue o ∧
      ∀ t ∈ o, isCanonicalText (.str t : Json F) maximum = true := by
  unfold optionalText
  cases hget : get payload name with
  | null =>
    cases o with
    | none => simp [optionalValue]
    | some t => simp [optionalValue]
  | str s =>
    simp only [ite_ok_eq_ok]
    constructor
    · rintro ⟨hs, h⟩
      obtain rfl := Except.ok.inj h
      refine ⟨rfl, fun t ht => ?_⟩
      obtain rfl := Option.mem_some_iff.mp ht
      exact hs
    · rintro ⟨h, hs⟩
      cases o with
      | none => cases h
      | some t =>
        obtain rfl := Json.str.inj h
        exact ⟨hs s rfl, rfl⟩
  | _ =>
    refine iff_of_false nofun ?_
    rintro ⟨h, -⟩
    cases o <;> cases h

theorem evidenceRef_eq_ok {label t : Text} {item : Json F} :
    evidenceRef label item = .ok t ↔
      item = .str t ∧ isEvidenceReference (.str t : Json F) = true := by
  cases item with
  | str s =>
    simp only [evidenceRef, ite_ok_eq_ok, Json.str.injEq]
    constructor
    · rintro ⟨hs, h⟩
      obtain rfl := Except.ok.inj h
      exact ⟨rfl, hs⟩
    · rintro ⟨rfl, hs⟩
      exact ⟨hs, rfl⟩
  | _ => simp [evidenceRef]

theorem mapM_evidenceRef_eq_ok {label : Text} {items : List (Json F)} {references : List Text} :
    items.mapM (evidenceRef label) = .ok references ↔ items = references.map .str ∧
      ∀ t ∈ references, isEvidenceReference (.str t : Json F) = true := by
  induction items generalizing references with
  | nil =>
    rw [List.mapM_nil]
    constructor
    · intro h
      obtain rfl := Except.ok.inj h
      exact ⟨rfl, nofun⟩
    · rintro ⟨h, -⟩
      rw [List.map_eq_nil_iff.mp h.symm]
      rfl
  | cons item items ih =>
    rw [List.mapM_cons, bind_eq_ok]
    constructor
    · rintro ⟨t, ht, h⟩
      obtain ⟨rest, hrest, h⟩ := bind_eq_ok.mp h
      obtain rfl := Except.ok.inj h
      obtain ⟨rfl, hitem⟩ := evidenceRef_eq_ok.mp ht
      obtain ⟨rfl, hitems⟩ := ih.mp hrest
      exact ⟨rfl, List.forall_mem_cons.mpr ⟨hitem, hitems⟩⟩
    · rintro ⟨hitems, hall⟩
      cases references with
      | nil => cases hitems
      | cons t rest =>
        obtain ⟨rfl, rfl⟩ := List.cons.inj hitems
        obtain ⟨ht, hrest⟩ := List.forall_mem_cons.mp hall
        exact ⟨t, evidenceRef_eq_ok.mpr ⟨rfl, ht⟩, bind_eq_ok.mpr ⟨rest, ih.mpr ⟨rfl, hrest⟩, rfl⟩⟩

/-- The references are what the list holds. -/
theorem evidenceRefs_eq_arr {value : Json F} {label : Text} {references : List Text}
    (h : evidenceRefs value label = .ok references) : value = .arr (references.map .str) := by
  cases value with
  | arr items =>
    obtain ⟨-, h⟩ := ite_error_eq_ok.mp h
    obtain ⟨references', hitems, h⟩ := bind_eq_ok.mp h
    obtain ⟨-, h⟩ := ite_error_eq_ok.mp h
    obtain rfl := Except.ok.inj h
    rw [(mapM_evidenceRef_eq_ok.mp hitems).1]
  | _ => cases h

/-! ### Contracts -/

variable [PyFloat F]

/-- The checks that an asset context has passed, and the record made of it. -/
structure AssetAccepted (H : Digest) (value : Fields F) (r : AssetContext) : Prop where
  shape : checkShape assetLabel assetAllowed assetRequired value = .ok ()
  version : get value (lit "schema_version") = .str assetSchemaVersion
  source : sourceIdentifier value assetLabel = .ok r.source
  sourceAssetId : identifier value (lit "source_asset_id") assetLabel = .ok r.sourceAssetId
  assetId : identifier value (lit "asset_id") assetLabel = .ok r.assetId
  owner : identifier value (lit "owner") assetLabel = .ok r.owner
  observedAt : ∃ u, timestamp value (lit "observed_at") assetLabel = .ok u ∧
    r.observedAt = u.isoformatZ
  criticality : text value (lit "criticality") 16 assetLabel = .ok r.criticality
  isCriticality : r.criticality ∈ criticalities
  status : text value (lit "status") 16 assetLabel = .ok r.status
  isStatus : r.status ∈ assetStatuses
  hostname : optionalText value (lit "hostname") 255 assetLabel = .ok r.hostname
  references : evidenceRefs (get value (lit "evidence_refs")) assetLabel = .ok r.evidenceRefs
  contextId : contractId H "ASSET-CTX-" [assetSchemaVersion, r.source, r.sourceAssetId, r.assetId] =
    .ok r.contextId
  schemaVersion : r.schemaVersion = assetSchemaVersion

theorem normalizeAssetContextV1_eq_ok {H : Digest} {payload : Json F} {r : AssetContext} :
    normalizeAssetContextV1 H payload = .ok r ↔
      ∃ value, payload = .obj value ∧ AssetAccepted H value r := by
  unfold normalizeAssetContextV1 assetIdentity
  constructor
  · intro h
    obtain ⟨⟨value, identity⟩, hidentity, h⟩ := bind_eq_ok.mp h
    obtain ⟨fields, hfields, hchecks⟩ := bind_eq_ok.mp hidentity
    obtain ⟨hpayload, hshape⟩ := shape_eq_ok.mp hfields
    obtain ⟨hversion, hchecks⟩ := ite_error_eq_ok.mp hchecks
    obtain ⟨source, hsource, hchecks⟩ := bind_eq_ok.mp hchecks
    obtain ⟨sourceAssetId, hsourceAssetId, hchecks⟩ := bind_eq_ok.mp hchecks
    obtain ⟨assetId, hassetId, hchecks⟩ := bind_eq_ok.mp hchecks
    obtain ⟨owner, howner, hchecks⟩ := bind_eq_ok.mp hchecks
    cases hchecks
    obtain ⟨u, hu, h⟩ := bind_eq_ok.mp h
    obtain ⟨criticality, hcriticality, h⟩ := bind_eq_ok.mp h
    obtain ⟨status, hstatus, h⟩ := bind_eq_ok.mp h
    obtain ⟨⟨⟩, hiscriticality, h⟩ := bind_eq_ok.mp h
    obtain ⟨⟨⟩, hisstatus, h⟩ := bind_eq_ok.mp h
    obtain ⟨hostname, hhostname, h⟩ := bind_eq_ok.mp h
    obtain ⟨references, hreferences, h⟩ := bind_eq_ok.mp h
    obtain ⟨contextId, hcontextId, h⟩ := bind_eq_ok.mp h
    cases h
    refine ⟨value, hpayload, ?_⟩
    exact {
      shape := hshape
      version := pyEq_str.mp (by simpa using hversion)
      source := hsource
      sourceAssetId := hsourceAssetId
      assetId := hassetId
      owner := howner
      observedAt := ⟨u, hu, rfl⟩
      criticality := hcriticality
      isCriticality := checkChoice_eq_ok.mp hiscriticality
      status := hstatus
      isStatus := checkChoice_eq_ok.mp hisstatus
      hostname := hhostname
      references := hreferences
      contextId := hcontextId
      schemaVersion := rfl }
  · rintro ⟨value, rfl, h⟩
    obtain ⟨u, hu, hobserved⟩ := h.observedAt
    refine bind_eq_ok.mpr ⟨(value, ⟨r.source, r.sourceAssetId, r.assetId, r.owner⟩), ?_, ?_⟩
    · refine bind_eq_ok.mpr ⟨value, shape_eq_ok.mpr ⟨rfl, h.shape⟩, ?_⟩
      refine ite_error_eq_ok.mpr ⟨by simp [pyEq_str.mpr h.version], ?_⟩
      refine bind_eq_ok.mpr ⟨_, h.source, ?_⟩
      refine bind_eq_ok.mpr ⟨_, h.sourceAssetId, ?_⟩
      refine bind_eq_ok.mpr ⟨_, h.assetId, ?_⟩
      exact bind_eq_ok.mpr ⟨_, h.owner, rfl⟩
    · refine bind_eq_ok.mpr ⟨u, hu, ?_⟩
      refine bind_eq_ok.mpr ⟨_, h.criticality, ?_⟩
      refine bind_eq_ok.mpr ⟨_, h.status, ?_⟩
      refine bind_eq_ok.mpr ⟨(), checkChoice_eq_ok.mpr h.isCriticality, ?_⟩
      refine bind_eq_ok.mpr ⟨(), checkChoice_eq_ok.mpr h.isStatus, ?_⟩
      refine bind_eq_ok.mpr ⟨_, h.hostname, ?_⟩
      refine bind_eq_ok.mpr ⟨_, h.references, ?_⟩
      refine bind_eq_ok.mpr ⟨_, h.contextId, ?_⟩
      rw [← hobserved, ← h.schemaVersion]
      rfl

omit [PyFloat F] in
theorem checkOrder_eq_ok {created later : UtcDatetime} {name : String} {u : Unit} :
    checkOrder created later name = .ok u ↔ ¬ later.key < created.key := by
  unfold checkOrder
  rw [ite_error_eq_ok]
  exact and_iff_left rfl

omit [PyFloat F] in
theorem ticketTimes_eq_ok {value : Fields F} {times : TicketTimes} :
    ticketTimes value = .ok times ↔
      timestamp value (lit "created_at") ticketLabel = .ok times.createdAt ∧
      timestamp value (lit "updated_at") ticketLabel = .ok times.updatedAt ∧
      timestamp value (lit "due_at") ticketLabel = .ok times.dueAt := by
  unfold ticketTimes
  simp only [bind_eq_ok]
  constructor
  · rintro ⟨createdAt, hcreated, updatedAt, hupdated, dueAt, hdue, h⟩
    obtain rfl := Except.ok.inj h
    exact ⟨hcreated, hupdated, hdue⟩
  · rintro ⟨hcreated, hupdated, hdue⟩
    exact ⟨_, hcreated, _, hupdated, _, hdue, rfl⟩

/-- The checks that a ticket has passed, and the record made of it. -/
structure TicketAccepted (H : Digest) (value : Fields F) (r : RemediationTicket) : Prop where
  shape : checkShape ticketLabel ticketFields ticketFields value = .ok ()
  version : get value (lit "schema_version") = .str ticketSchemaVersion
  source : sourceIdentifier value ticketLabel = .ok r.identity.source
  sourceTicketId : identifier value (lit "source_ticket_id") ticketLabel =
    .ok r.identity.sourceTicketId
  findingId : identifier value (lit "finding_id") ticketLabel = .ok r.identity.findingId
  assetId : identifier value (lit "asset_id") ticketLabel = .ok r.identity.assetId
  owner : identifier value (lit "owner") ticketLabel = .ok r.identity.owner
  status : text value (lit "status") 32 ticketLabel = .ok r.identity.status
  isStatus : r.identity.status ∈ ticketStatuses
  priority : text value (lit "priority") 2 ticketLabel = .ok r.identity.priority
  isPriority : r.identity.priority ∈ ticketPriorities
  times : ∃ times : TicketTimes, ticketTimes value = .ok times ∧
    ¬ times.updatedAt.key < times.createdAt.key ∧ ¬ times.dueAt.key < times.createdAt.key ∧
    r.createdAt = times.createdAt.isoformatZ ∧ r.updatedAt = times.updatedAt.isoformatZ ∧
    r.dueAt = times.dueAt.isoformatZ
  references : evidenceRefs (get value (lit "evidence_refs")) ticketLabel = .ok r.evidenceRefs
  ticketContextId : contractId H "TICKET-CTX-" [ticketSchemaVersion, r.identity.source,
    r.identity.sourceTicketId, r.identity.findingId] = .ok r.ticketContextId
  schemaVersion : r.schemaVersion = ticketSchemaVersion

theorem normalizeRemediationTicketV1_eq_ok {H : Digest} {payload : Json F} {r : RemediationTicket} :
    normalizeRemediationTicketV1 H payload = .ok r ↔
      ∃ value, payload = .obj value ∧ TicketAccepted H value r := by
  unfold normalizeRemediationTicketV1 ticketIdentity
  constructor
  · intro h
    obtain ⟨⟨value, identity⟩, hidentity, h⟩ := bind_eq_ok.mp h
    obtain ⟨fields, hfields, hchecks⟩ := bind_eq_ok.mp hidentity
    obtain ⟨hpayload, hshape⟩ := shape_eq_ok.mp hfields
    obtain ⟨hversion, hchecks⟩ := ite_error_eq_ok.mp hchecks
    obtain ⟨source, hsource, hchecks⟩ := bind_eq_ok.mp hchecks
    obtain ⟨sourceTicketId, hsourceTicketId, hchecks⟩ := bind_eq_ok.mp hchecks
    obtain ⟨findingId, hfindingId, hchecks⟩ := bind_eq_ok.mp hchecks
    obtain ⟨assetId, hassetId, hchecks⟩ := bind_eq_ok.mp hchecks
    obtain ⟨owner, howner, hchecks⟩ := bind_eq_ok.mp hchecks
    obtain ⟨status, hstatus, hchecks⟩ := bind_eq_ok.mp hchecks
    obtain ⟨priority, hpriority, hchecks⟩ := bind_eq_ok.mp hchecks
    obtain ⟨⟨⟩, hisstatus, hchecks⟩ := bind_eq_ok.mp hchecks
    obtain ⟨⟨⟩, hispriority, hchecks⟩ := bind_eq_ok.mp hchecks
    cases hchecks
    obtain ⟨times, htimes, h⟩ := bind_eq_ok.mp h
    obtain ⟨⟨⟩, hupdated, h⟩ := bind_eq_ok.mp h
    obtain ⟨⟨⟩, hdue, h⟩ := bind_eq_ok.mp h
    obtain ⟨references, hreferences, h⟩ := bind_eq_ok.mp h
    obtain ⟨ticketContextId, hticketContextId, h⟩ := bind_eq_ok.mp h
    cases h
    refine ⟨value, hpayload, ?_⟩
    exact {
      shape := hshape
      version := pyEq_str.mp (by simpa using hversion)
      source := hsource
      sourceTicketId := hsourceTicketId
      findingId := hfindingId
      assetId := hassetId
      owner := howner
      status := hstatus
      isStatus := checkChoice_eq_ok.mp hisstatus
      priority := hpriority
      isPriority := checkChoice_eq_ok.mp hispriority
      times := ⟨times, htimes, checkOrder_eq_ok.mp hupdated, checkOrder_eq_ok.mp hdue, rfl, rfl, rfl⟩
      references := hreferences
      ticketContextId := hticketContextId
      schemaVersion := rfl }
  · rintro ⟨value, rfl, h⟩
    obtain ⟨times, htimes, hupdated, hdue, hcreatedAt, hupdatedAt, hdueAt⟩ := h.times
    refine bind_eq_ok.mpr ⟨(value, r.identity), ?_, ?_⟩
    · refine bind_eq_ok.mpr ⟨value, shape_eq_ok.mpr ⟨rfl, h.shape⟩, ?_⟩
      refine ite_error_eq_ok.mpr ⟨by simp [pyEq_str.mpr h.version], ?_⟩
      refine bind_eq_ok.mpr ⟨_, h.source, ?_⟩
      refine bind_eq_ok.mpr ⟨_, h.sourceTicketId, ?_⟩
      refine bind_eq_ok.mpr ⟨_, h.findingId, ?_⟩
      refine bind_eq_ok.mpr ⟨_, h.assetId, ?_⟩
      refine bind_eq_ok.mpr ⟨_, h.owner, ?_⟩
      refine bind_eq_ok.mpr ⟨_, h.status, ?_⟩
      refine bind_eq_ok.mpr ⟨_, h.priority, ?_⟩
      refine bind_eq_ok.mpr ⟨(), checkChoice_eq_ok.mpr h.isStatus, ?_⟩
      exact bind_eq_ok.mpr ⟨(), checkChoice_eq_ok.mpr h.isPriority, rfl⟩
    · refine bind_eq_ok.mpr ⟨times, htimes, ?_⟩
      refine bind_eq_ok.mpr ⟨(), checkOrder_eq_ok.mpr hupdated, ?_⟩
      refine bind_eq_ok.mpr ⟨(), checkOrder_eq_ok.mpr hdue, ?_⟩
      refine bind_eq_ok.mpr ⟨_, h.references, ?_⟩
      refine bind_eq_ok.mpr ⟨_, h.ticketContextId, ?_⟩
      rw [← hcreatedAt, ← hupdatedAt, ← hdueAt, ← h.schemaVersion]
      rfl

omit [PyFloat F] in
theorem checkIdentifiers_eq_ok {named : List (String × Text)} {u : Unit} :
    checkIdentifiers named = .ok u ↔ ∀ f ∈ named, isIdentifier f.2 = true := by
  induction named with
  | nil => exact iff_of_true rfl nofun
  | cons f rest ih =>
    rw [checkIdentifiers, ite_error_eq_ok, ih, List.forall_mem_cons]
    simp

omit [PyFloat F] in
theorem parseAlertKind_eq_some {t : Text} {kind : AlertKind} :
    parseAlertKind t = some kind ↔ kind.text = t := by
  constructor
  · intro h
    simpa using List.find?_some h
  · rintro rfl
    cases kind <;> rfl

/-- What an accepted alert says about its identity. -/
structure AlertAccepted (H : Digest) (value : Fields F) (finding : AlertFinding F) (kind : AlertKind) :
    Prop where
  source : get value (lit "source") = .str finding.source
  isSource : isIdentifier finding.source = true
  sourceEventId : ∃ t, get value (lit "source_event_id") = .str t ∧ isIdentifier t = true ∧
    contractId H "SEC-ALERT-" [alertSchemaVersion, finding.source, t, finding.assetId, kind.text] =
      .ok finding.findingId
  assetId : get value (lit "asset_id") = .str finding.assetId
  isAssetId : isIdentifier finding.assetId = true
  kind : get value (lit "kind") = .str kind.text

theorem normalizeSecurityAlertV1_eq_ok {H : Digest} {alert : Json F} {finding : AlertFinding F}
    (h : normalizeSecurityAlertV1 H alert = .ok finding) :
    ∃ value kind, alert = .obj value ∧ AlertAccepted H value finding kind := by
  cases alert with
  | obj value =>
    unfold normalizeSecurityAlertV1 at h
    obtain ⟨⟨⟩, -, h⟩ := bind_eq_ok.mp h
    obtain ⟨texts, htexts, h⟩ := bind_eq_ok.mp h
    obtain ⟨event, hevent, h⟩ := bind_eq_ok.mp h
    obtain ⟨⟨sourceIp, targetUser⟩, -, h⟩ := bind_eq_ok.mp h
    obtain ⟨findingId, hfindingId, h⟩ := bind_eq_ok.mp h
    cases h
    obtain ⟨source, hsource, htexts⟩ := bind_eq_ok.mp htexts
    obtain ⟨sourceEventId, hsourceEventId, htexts⟩ := bind_eq_ok.mp htexts
    obtain ⟨assetId, hassetId, htexts⟩ := bind_eq_ok.mp htexts
    obtain ⟨title, -, htexts⟩ := bind_eq_ok.mp htexts
    obtain ⟨riskOwner, -, htexts⟩ := bind_eq_ok.mp htexts
    obtain ⟨⟨⟩, hidentifiers, htexts⟩ := bind_eq_ok.mp htexts
    obtain ⟨-, htexts⟩ := ite_error_eq_ok.mp htexts
    cases htexts
    have hids := checkIdentifiers_eq_ok.mp hidentifiers
    obtain ⟨⟨kind, severity, eventCode⟩, hkind, hevent⟩ := bind_eq_ok.mp hevent
    obtain ⟨observedAt, -, hevent⟩ := bind_eq_ok.mp hevent
    obtain ⟨references, -, hevent⟩ := bind_eq_ok.mp hevent
    cases hevent
    obtain ⟨kindText, hkindText, hkind⟩ := bind_eq_ok.mp hkind
    obtain ⟨severity', -, hkind⟩ := bind_eq_ok.mp hkind
    cases hparse : parseAlertKind kindText with
    | none =>
      rw [hparse] at hkind
      cases hkind
    | some parsed =>
      rw [hparse] at hkind
      obtain ⟨-, hkind⟩ := ite_error_eq_ok.mp hkind
      obtain ⟨-, hkind⟩ := ite_error_eq_ok.mp hkind
      cases hkind
      obtain rfl := parseAlertKind_eq_some.mp hparse
      refine ⟨value, kind, rfl, ?_⟩
      exact {
        source := (text_eq_ok.mp hsource).1
        isSource := hids ("source", source) (by simp)
        sourceEventId := ⟨sourceEventId, (text_eq_ok.mp hsourceEventId).1,
          hids ("source_event_id", sourceEventId) (by simp), hfindingId⟩
        assetId := (text_eq_ok.mp hassetId).1
        isAssetId := hids ("asset_id", assetId) (by simp)
        kind := (text_eq_ok.mp hkindText).1 }
  | _ => cases h

end SentinelGRC.Contracts
