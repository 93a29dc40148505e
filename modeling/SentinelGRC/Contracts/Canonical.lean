import SentinelGRC.Contracts.Timestamps

/-!
Normalized records. What a normalizer reads of a payload beside its timestamps is what it
puts into the record, and of a timestamp it keeps the instant only. So the record without
its derived id is a payload of the same record, and so is every other way to write the
instants of the payload.
-/

namespace SentinelGRC.Contracts

open Python Json

variable {F : Type}

/-! ### Records -/

/-- The dictionary that `normalize_asset_context_v1` returns. -/
def AssetContext.record (r : AssetContext) : Fields F :=
  [(lit "context_id", .str r.contextId), (lit "schema_version", .str r.schemaVersion),
    (lit "source", .str r.source), (lit "source_asset_id", .str r.sourceAssetId),
    (lit "asset_id", .str r.assetId), (lit "hostname", optionalValue r.hostname),
    (lit "owner", .str r.owner), (lit "criticality", .str r.criticality),
    (lit "status", .str r.status), (lit "observed_at", .str r.observedAt),
    (lit "evidence_refs", .arr (r.evidenceRefs.map .str))]

/-- The dictionary that `normalize_remediation_ticket_v1` returns. -/
def RemediationTicket.record (r : RemediationTicket) : Fields F :=
  [(lit "ticket_context_id", .str r.ticketContextId), (lit "schema_version", .str r.schemaVersion),
    (lit "source", .str r.identity.source), (lit "source_ticket_id", .str r.identity.sourceTicketId),
    (lit "finding_id", .str r.identity.findingId), (lit "asset_id", .str r.identity.assetId),
    (lit "owner", .str r.identity.owner), (lit "status", .str r.identity.status),
    (lit "priority", .str r.identity.priority), (lit "created_at", .str r.createdAt),
    (lit "updated_at", .str r.updatedAt), (lit "due_at", .str r.dueAt),
    (lit "evidence_refs", .arr (r.evidenceRefs.map .str))]

def assetTimeFields : List Text := [lit "observed_at"]

def ticketTimeFields : List Text := [lit "created_at", lit "updated_at", lit "due_at"]

/-! ### Reading the same fields -/

section

variable {a b : Fields F} {name label : Text}

theorem text_congr (h : get a name = get b name) (maximum : ℕ) (label : Text) :
    text a name maximum label = text b name maximum label := by
  unfold text
  rw [h]

theorem identifier_congr (h : get a name = get b name) (label : Text) :
    identifier a name label = identifier b name label := by
  unfold identifier
  rw [text_congr h]

theorem sourceIdentifier_congr (h : get a (lit "source") = get b (lit "source")) (label : Text) :
    sourceIdentifier a label = sourceIdentifier b label := by
  unfold sourceIdentifier
  rw [identifier_congr h]

theorem optionalText_congr (h : get a name = get b name) (maximum : ℕ) (label : Text) :
    optionalText a name maximum label = optionalText b name maximum label := by
  unfold optionalText
  rw [h]

theorem instant_congr (h : get a name = get b name) (label : Text) :
    instant a name label = instant b name label := by
  unfold instant
  rw [text_congr h]

/-- Two ways to write one instant have the same UTC timestamp. -/
theorem timestamp_congr {d e : AwareDatetime} {u : UtcDatetime}
    (hd : instant a name label = .ok d) (he : instant b name label = .ok e)
    (h : d.instant = e.instant) (hu : timestamp a name label = .ok u) :
    timestamp b name label = .ok u := by
  obtain ⟨d', hd', hu⟩ := bind_eq_ok.mp hu
  obtain rfl : d = d' := Except.ok.inj (hd.symm.trans hd')
  exact bind_eq_ok.mpr ⟨e, he, AwareDatetime.astimezone_congr h hu⟩

/-- Two payloads that agree in the allowed fields, but for the way in which the timestamps
among them are written. -/
structure Restamped (label : Text) (allowed times : List Text) (a b : Fields F) : Prop where
  fields : ∀ name ∈ allowed, name ∉ times → get a name = get b name
  instants : ∀ name ∈ times, ∃ d e, instant a name label = .ok d ∧ instant b name label = .ok e ∧
    d.instant = e.instant

theorem Restamped.timestamp {allowed times : List Text} (h : Restamped label allowed times a b)
    (hname : name ∈ times) {u : UtcDatetime} (hu : timestamp a name label = .ok u) :
    timestamp b name label = .ok u := by
  obtain ⟨d, e, hd, he, hsame⟩ := h.instants name hname
  exact timestamp_congr hd he hsame hu

/-- A field that is neither allowed nor a timestamp can be removed. -/
theorem Restamped.pop {allowed times : List Text} {id : Text}
    (h : Restamped label allowed times a b) (hallowed : id ∉ allowed) (htimes : id ∉ times) :
    Restamped label allowed times a (pop b id) where
  fields := by
    intro name hname hout
    rw [get_pop (ne_of_mem_of_not_mem hname hallowed)]
    exact h.fields name hname hout
  instants := by
    intro name hname
    rw [instant_congr (get_pop (ne_of_mem_of_not_mem hname htimes)) label]
    exact h.instants name hname

/-- Two payloads that differ only in how their timestamps write the same instants. -/
structure SameButTimes (label : Text) (times : List Text) (a b : Fields F) : Prop where
  fields : ∀ name, name ∉ times → field name a = field name b
  instants : ∀ name ∈ times, ∃ d e, instant a name label = .ok d ∧ instant b name label = .ok e ∧
    d.instant = e.instant

theorem SameButTimes.restamped {allowed times : List Text} (h : SameButTimes label times a b) :
    Restamped label allowed times a b where
  fields := by
    intro name _ hout
    rw [Json.get, Json.get, h.fields name hout]
  instants := h.instants

theorem mem_keys_iff {fs : Fields F} : name ∈ fs.map Prod.fst ↔ (field name fs).isSome = true := by
  induction fs with
  | nil => simp [field]
  | cons f fs ih =>
    rw [List.map_cons, List.mem_cons, field]
    split_ifs with hname
    · exact iff_of_true (.inl hname.symm) rfl
    · rw [ih]
      exact or_iff_right (Ne.symm hname)

theorem mem_keys_of_instant {fs : Fields F} {d : AwareDatetime}
    (h : instant fs name label = .ok d) : name ∈ fs.map Prod.fst := by
  obtain ⟨t, hget, -⟩ := instant_eq_ok.mp h
  rw [mem_keys_iff]
  cases hfield : field name fs with
  | none =>
    rw [Json.get, hfield] at hget
    cases hget
  | some v => rfl

theorem SameButTimes.mem_keys_iff {times : List Text} (h : SameButTimes label times a b)
    (name : Text) : name ∈ a.map Prod.fst ↔ name ∈ b.map Prod.fst := by
  by_cases hname : name ∈ times
  · obtain ⟨d, e, hd, he, -⟩ := h.instants name hname
    exact iff_of_true (mem_keys_of_instant hd) (mem_keys_of_instant he)
  · rw [Contracts.mem_keys_iff, Contracts.mem_keys_iff, h.fields name hname]

theorem SameButTimes.checkShape {times allowed required : List Text} {u : Unit}
    (h : SameButTimes label times a b)
    (ha : checkShape label allowed required a = .ok u) :
    checkShape label allowed required b = .ok u := by
  obtain ⟨hallowed, hrequired⟩ := checkShape_eq_ok.mp ha
  refine checkShape_eq_ok.mpr ⟨fun k hk => ?_, fun k hk => ?_⟩
  · exact hallowed k ((h.mem_keys_iff k).mpr hk)
  · exact (h.mem_keys_iff k).mp (hrequired k hk)

end

/-- A stored timestamp names the instant that it was made from. -/
theorem restamped_of_timestamp {a b : Fields F} {name label t : Text} {u : UtcDatetime}
    (hu : timestamp a name label = .ok u) (ht : t = u.isoformatZ) (hb : get b name = .str t) :
    ∃ d e, instant a name label = .ok d ∧ instant b name label = .ok e ∧
      d.instant = e.instant := by
  obtain ⟨d, hd, hu⟩ := bind_eq_ok.mp hu
  rw [ht] at hb
  refine ⟨d, u.aware, hd, instant_isoformatZ label hb, ?_⟩
  rw [UtcDatetime.instant_aware, AwareDatetime.instant_astimezone hu]

/-! ### Asset contexts -/

theorem AssetAccepted.restamp {H : Digest} {a b : Fields F} {r : AssetContext}
    (h : AssetAccepted H a r) (hshape : checkShape assetLabel assetAllowed assetRequired b = .ok ())
    (hsame : Restamped assetLabel assetAllowed assetTimeFields a b) : AssetAccepted H b r := by
  have hget : ∀ name ∈ assetAllowed, name ∉ assetTimeFields → get a name = get b name := hsame.fields
  obtain ⟨u, hu, hobserved⟩ := h.observedAt
  exact {
    shape := hshape
    version := (hget _ (by decide) (by decide)).symm.trans h.version
    source := (sourceIdentifier_congr (hget _ (by decide) (by decide)) _).symm.trans h.source
    sourceAssetId :=
      (identifier_congr (hget _ (by decide) (by decide)) _).symm.trans h.sourceAssetId
    assetId := (identifier_congr (hget _ (by decide) (by decide)) _).symm.trans h.assetId
    owner := (identifier_congr (hget _ (by decide) (by decide)) _).symm.trans h.owner
    observedAt := ⟨u, hsame.timestamp (by decide) hu, hobserved⟩
    criticality := (text_congr (hget _ (by decide) (by decide)) _ _).symm.trans h.criticality
    isCriticality := h.isCriticality
    status := (text_congr (hget _ (by decide) (by decide)) _ _).symm.trans h.status
    isStatus := h.isStatus
    hostname := (optionalText_congr (hget _ (by decide) (by decide)) _ _).symm.trans h.hostname
    references := by
      rw [← hget (lit "evidence_refs") (by decide) (by decide)]
      exact h.references
    contextId := h.contextId
    schemaVersion := h.schemaVersion }

/-- The record of an accepted payload restamps it. -/
theorem AssetAccepted.record_restamped {H : Digest} {a : Fields F} {r : AssetContext}
    (h : AssetAccepted H a r) :
    Restamped assetLabel assetAllowed assetTimeFields a r.record where
  fields := by
    simp only [assetAllowed, assetRequired, List.cons_append, List.nil_append, List.forall_mem_cons]
    obtain ⟨hsource, -⟩ := identifier_eq_ok.mp (sourceIdentifier_eq_ok.mp h.source).1
    refine ⟨fun _ => ?_, fun _ => ?_, fun _ => ?_, fun hout => ?_, fun _ => ?_, fun _ => ?_,
      fun _ => ?_, fun _ => ?_, fun _ => ?_, fun _ => ?_, List.forall_mem_nil _⟩
    · rw [h.version, ← h.schemaVersion]
      rfl
    · exact hsource
    · exact (identifier_eq_ok.mp h.sourceAssetId).1
    · exact absurd (by decide) hout
    · exact (identifier_eq_ok.mp h.assetId).1
    · exact (identifier_eq_ok.mp h.owner).1
    · exact (text_eq_ok.mp h.criticality).1
    · exact (text_eq_ok.mp h.status).1
    · exact evidenceRefs_eq_arr h.references
    · exact (optionalText_eq_ok.mp h.hostname).1
  instants := by
    simp only [assetTimeFields, List.forall_mem_cons]
    refine ⟨?_, List.forall_mem_nil _⟩
    obtain ⟨u, hu, hobserved⟩ := h.observedAt
    exact restamped_of_timestamp hu hobserved rfl

theorem AssetContext.checkShape_record (r : AssetContext) :
    checkShape assetLabel assetAllowed assetRequired
      (pop (r.record : Fields F) (lit "context_id")) = .ok () := by
  have hkeys : (pop (r.record : Fields F) (lit "context_id")).map Prod.fst =
      [lit "schema_version", lit "source", lit "source_asset_id", lit "asset_id", lit "hostname",
        lit "owner", lit "criticality", lit "status", lit "observed_at", lit "evidence_refs"] := rfl
  rw [checkShape_eq_ok, hkeys]
  decide

/-! ### Remediation tickets -/

theorem TicketAccepted.restamp {H : Digest} {a b : Fields F} {r : RemediationTicket}
    (h : TicketAccepted H a r) (hshape : checkShape ticketLabel ticketFields ticketFields b = .ok ())
    (hsame : Restamped ticketLabel ticketFields ticketTimeFields a b) : TicketAccepted H b r := by
  have hget : ∀ name ∈ ticketFields, name ∉ ticketTimeFields → get a name = get b name :=
    hsame.fields
  obtain ⟨times, htimes, horder⟩ := h.times
  obtain ⟨hcreated, hupdated, hdue⟩ := ticketTimes_eq_ok.mp htimes
  have htimes' : ticketTimes b = .ok times := ticketTimes_eq_ok.mpr
    ⟨hsame.timestamp (by decide) hcreated, hsame.timestamp (by decide) hupdated,
      hsame.timestamp (by decide) hdue⟩
  exact {
    shape := hshape
    version := (hget _ (by decide) (by decide)).symm.trans h.version
    source := (sourceIdentifier_congr (hget _ (by decide) (by decide)) _).symm.trans h.source
    sourceTicketId :=
      (identifier_congr (hget _ (by decide) (by decide)) _).symm.trans h.sourceTicketId
    findingId := (identifier_congr (hget _ (by decide) (by decide)) _).symm.trans h.findingId
    assetId := (identifier_congr (hget _ (by decide) (by decide)) _).symm.trans h.assetId
    owner := (identifier_congr (hget _ (by decide) (by decide)) _).symm.trans h.owner
    status := (text_congr (hget _ (by decide) (by decide)) _ _).symm.trans h.status
    isStatus := h.isStatus
    priority := (text_congr (hget _ (by decide) (by decide)) _ _).symm.trans h.priority
    isPriority := h.isPriority
    times := ⟨times, htimes', horder⟩
    references := by
      rw [← hget (lit "evidence_refs") (by decide) (by decide)]
      exact h.references
    ticketContextId := h.ticketContextId
    schemaVersion := h.schemaVersion }

/-- The record of an accepted ticket restamps it. -/
theorem TicketAccepted.record_restamped {H : Digest} {a : Fields F} {r : RemediationTicket}
    (h : TicketAccepted H a r) :
    Restamped ticketLabel ticketFields ticketTimeFields a r.record where
  fields := by
    simp only [ticketFields, List.forall_mem_cons]
    obtain ⟨hsource, -⟩ := identifier_eq_ok.mp (sourceIdentifier_eq_ok.mp h.source).1
    refine ⟨fun _ => ?_, fun _ => ?_, fun _ => ?_, fun _ => ?_, fun _ => ?_, fun _ => ?_,
      fun _ => ?_, fun _ => ?_, fun hout => ?_, fun hout => ?_, fun hout => ?_, fun _ => ?_, List.forall_mem_nil _⟩
    · rw [h.version, ← h.schemaVersion]
      rfl
    · exact hsource
    · exact (identifier_eq_ok.mp h.sourceTicketId).1
    · exact (identifier_eq_ok.mp h.findingId).1
    · exact (identifier_eq_ok.mp h.assetId).1
    · exact (identifier_eq_ok.mp h.owner).1
    · exact (text_eq_ok.mp h.status).1
    · exact (text_eq_ok.mp h.priority).1
    · exact absurd (by decide) hout
    · exact absurd (by decide) hout
    · exact absurd (by decide) hout
    · exact evidenceRefs_eq_arr h.references
  instants := by
    simp only [ticketTimeFields, List.forall_mem_cons]
    obtain ⟨times, htimes, -, -, hcreatedAt, hupdatedAt, hdueAt⟩ := h.times
    obtain ⟨hcreated, hupdated, hdue⟩ := ticketTimes_eq_ok.mp htimes
    refine ⟨?_, ?_, ?_, List.forall_mem_nil _⟩
    · exact restamped_of_timestamp hcreated hcreatedAt rfl
    · exact restamped_of_timestamp hupdated hupdatedAt rfl
    · exact restamped_of_timestamp hdue hdueAt rfl

theorem RemediationTicket.checkShape_record (r : RemediationTicket) :
    checkShape ticketLabel ticketFields ticketFields
      (pop (r.record : Fields F) (lit "ticket_context_id")) = .ok () := by
  have hkeys : (pop (r.record : Fields F) (lit "ticket_context_id")).map Prod.fst =
      [lit "schema_version", lit "source", lit "source_ticket_id", lit "finding_id", lit "asset_id",
        lit "owner", lit "status", lit "priority", lit "created_at", lit "updated_at", lit "due_at",
        lit "evidence_refs"] := rfl
  rw [checkShape_eq_ok, hkeys]
  decide

/-! ### Normalization -/

variable [PyFloat F]

/-- A normalizer whose records are canonical. The record without its derived identifier is
normalized to itself; its timestamps are normalized ones that name the instants of the payload;
and a payload that only writes these instants in another way has the same record. -/
structure Canonical {R : Type} (normalize : Json F → Except PyError R) (record : R → Fields F)
    (id label : Text) (times : List Text) : Prop where
  idempotent : ∀ {payload r}, normalize payload = .ok r →
    normalize (.obj (pop (record r) id)) = .ok r
  instants : ∀ {value r}, normalize (.obj value) = .ok r → ∀ name ∈ times, ∃ t d e,
    get (record r) name = .str t ∧ normalizedRfc3339 t = true ∧
      instant value name label = .ok d ∧ instant (record r) name label = .ok e ∧
        d.instant = e.instant
  canonical : ∀ {a b r}, normalize (.obj a) = .ok r → SameButTimes label times a b →
    normalize (.obj b) = .ok r

theorem canonical_assetContext (H : Digest) :
    Canonical (normalizeAssetContextV1 (F := F) H) AssetContext.record (lit "context_id") assetLabel
      assetTimeFields where
  idempotent := by
    intro payload r h
    obtain ⟨value, rfl, haccepted⟩ := normalizeAssetContextV1_eq_ok.mp h
    refine normalizeAssetContextV1_eq_ok.mpr ⟨_, rfl, ?_⟩
    exact haccepted.restamp r.checkShape_record
      (haccepted.record_restamped.pop (by decide) (by decide))
  instants := by
    intro value r h name hname
    obtain ⟨_, ⟨⟩, haccepted⟩ := normalizeAssetContextV1_eq_ok.mp h
    obtain ⟨d, e, hd, he, hsame⟩ := haccepted.record_restamped.instants name hname
    obtain rfl := List.mem_singleton.mp hname
    obtain ⟨u, -, hu⟩ := haccepted.observedAt
    refine ⟨r.observedAt, d, e, rfl, ?_, hd, he, hsame⟩
    rw [hu]
    exact normalizedRfc3339_isoformatZ u
  canonical := by
    intro a b r h hsame
    obtain ⟨_, ⟨⟩, haccepted⟩ := normalizeAssetContextV1_eq_ok.mp h
    refine normalizeAssetContextV1_eq_ok.mpr ⟨b, rfl, ?_⟩
    exact haccepted.restamp (hsame.checkShape haccepted.shape) hsame.restamped

theorem canonical_remediationTicket (H : Digest) :
    Canonical (normalizeRemediationTicketV1 (F := F) H) RemediationTicket.record
      (lit "ticket_context_id") ticketLabel ticketTimeFields where
  idempotent := by
    intro payload r h
    obtain ⟨value, rfl, haccepted⟩ := normalizeRemediationTicketV1_eq_ok.mp h
    refine normalizeRemediationTicketV1_eq_ok.mpr ⟨_, rfl, ?_⟩
    exact haccepted.restamp r.checkShape_record
      (haccepted.record_restamped.pop (by decide) (by decide))
  instants := by
    intro value r h name hname
    obtain ⟨_, ⟨⟩, haccepted⟩ := normalizeRemediationTicketV1_eq_ok.mp h
    obtain ⟨d, e, hd, he, hsame⟩ := haccepted.record_restamped.instants name hname
    obtain ⟨times, -, -, -, hcreated, hupdated, hdue⟩ := haccepted.times
    rcases List.mem_cons.mp hname with rfl | hname
    · refine ⟨r.createdAt, d, e, rfl, ?_, hd, he, hsame⟩
      rw [hcreated]
      exact normalizedRfc3339_isoformatZ _
    rcases List.mem_cons.mp hname with rfl | hname
    · refine ⟨r.updatedAt, d, e, rfl, ?_, hd, he, hsame⟩
      rw [hupdated]
      exact normalizedRfc3339_isoformatZ _
    · obtain rfl := List.mem_singleton.mp hname
      refine ⟨r.dueAt, d, e, rfl, ?_, hd, he, hsame⟩
      rw [hdue]
      exact normalizedRfc3339_isoformatZ _
  canonical := by
    intro a b r h hsame
    obtain ⟨_, ⟨⟩, haccepted⟩ := normalizeRemediationTicketV1_eq_ok.mp h
    refine normalizeRemediationTicketV1_eq_ok.mpr ⟨b, rfl, ?_⟩
    exact haccepted.restamp (hsame.checkShape haccepted.shape) hsame.restamped

/-- Both normalizers are canonical. -/
theorem normalizers_canonical (H : Digest) :
    Canonical (normalizeAssetContextV1 (F := F) H) AssetContext.record (lit "context_id") assetLabel
        assetTimeFields ∧
      Canonical (normalizeRemediationTicketV1 (F := F) H) RemediationTicket.record
        (lit "ticket_context_id") ticketLabel ticketTimeFields :=
  ⟨canonical_assetContext H, canonical_remediationTicket H⟩

end SentinelGRC.Contracts
