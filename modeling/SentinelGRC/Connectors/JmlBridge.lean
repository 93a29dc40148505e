import SentinelGRC.Connectors.Jml

/-!
The bridge of JML requests. It stores the finding of every accepted request, and keeps the
findings of different requests apart exactly as long as no accepted identifier is the
prefixed form of another accepted one.
-/

namespace SentinelGRC.Connectors

open Python Json Store Contracts

variable {F T : Type}

/-! ### The loop -/

/-- What the bridge reads for a request, and when it stores the finding. -/
structure JmlRow (F T : Type) where
  request : Fields F
  verification : Option (Fields F)
  executionActorId : Option Text
  current : T

/-- What `run_jml_bridge` returns. -/
structure BridgeResult where
  requestsRead : ℕ
  findingsCreated : ℕ
  findingsReassessed : ℕ
  skipped : ℕ
  errors : ℕ
  findingIds : List Text

def BridgeResult.empty : BridgeResult := ⟨0, 0, 0, 0, 0, []⟩

def BridgeResult.count (r : BridgeResult) (created : Bool) (findingId : Text) : BridgeResult :=
  { r with
    findingIds := r.findingIds ++ [findingId]
    findingsCreated := r.findingsCreated + if created then 1 else 0
    findingsReassessed := r.findingsReassessed + if created then 0 else 1 }

/-- `except (TypeError, ValueError)`. -/
def caughtByBridge : PyError → Bool
  | .typeError _ | .valueError _ | .unicodeEncodeError | .unicodeDecodeError | .jsonDecodeError => true
  | _ => false

variable [PyFloat F]

/-- The finding of a row, when it has one. -/
def JmlRow.normalize (repr : Text → Text) (row : JmlRow F T) :
    Except PyError (Option (ExternalFinding F)) :=
  normalizeJmlRequest repr row.request row.verification row.executionActorId

/-- One turn of the loop. -/
def bridgeRow (repr : Text → Text) (s : ExternalFindings F T × BridgeResult) (row : JmlRow F T) :
    Except PyError (ExternalFindings F T × BridgeResult) :=
  let result := { s.2 with requestsRead := s.2.requestsRead + 1 }
  match row.normalize repr with
  | .error e =>
    if caughtByBridge e then .ok (s.1, { result with errors := result.errors + 1 }) else .error e
  | .ok none => .ok (s.1, { result with skipped := result.skipped + 1 })
  | .ok (some finding) => do
    let (t, created) ← upsertExternalFinding s.1 finding row.current
    return (t, result.count created finding.findingId)

/-- The rows of one run or of several, one after the other. -/
def bridgeRows (repr : Text → Text) (s : ExternalFindings F T × BridgeResult)
    (rows : List (JmlRow F T)) : Except PyError (ExternalFindings F T × BridgeResult) :=
  rows.foldlM (bridgeRow repr) s

/-- The request whose finding a row of the table is. -/
def ExternalRow.requestId (q : ExternalRow F T) : Text :=
  match get q.details (lit "jml_request_id") with
  | .str t => t
  | _ => []

/-- The request `r` is accepted, and `f` is its finding. -/
structure Accepted (repr : Text → Text) (row : JmlRow F T) (r : Text) (f : ExternalFinding F) :
    Prop where
  finding : row.normalize repr = .ok (some f)
  requestId : get row.request (lit "request_id") = .str r

/-! ### Accepted requests -/

variable {repr : Text → Text}

theorem severity_mem (kind : RequestType) : kind.severity ∈ severities := by cases kind <;> decide

/-- A finding says which request it is of and is named after it. -/
theorem accepted_iff {row : JmlRow F T} {r : Text} {f : ExternalFinding F} :
    Accepted repr row r f ↔ row.normalize repr = .ok (some f) ∧
      get f.details (lit "jml_request_id") = .str r := by
  constructor
  · rintro ⟨hf, hr⟩
    obtain ⟨texts, oldDepartment, verifierId, actorId, htexts, rfl⟩ := normalizeJmlRequest_eq_some hf
    have hid := (jmlTexts_requestId htexts).1
    exact ⟨hf, hid.symm.trans hr⟩
  · rintro ⟨hf, hr⟩
    refine ⟨hf, ?_⟩
    obtain ⟨texts, oldDepartment, verifierId, actorId, htexts, rfl⟩ := normalizeJmlRequest_eq_some hf
    exact (jmlTexts_requestId htexts).1.trans hr

theorem Accepted.findingId {row : JmlRow F T} {r : Text} {f : ExternalFinding F}
    (h : Accepted repr row r f) : f.findingId = jmlFindingId r := by
  obtain ⟨hf, hr⟩ := accepted_iff.mp h
  obtain ⟨texts, oldDepartment, verifierId, actorId, -, rfl⟩ := normalizeJmlRequest_eq_some hf
  obtain rfl : texts.requestId = r := Json.str.inj hr
  rfl

theorem exists_accepted {row : JmlRow F T} {f : ExternalFinding F}
    (h : row.normalize repr = .ok (some f)) : ∃ r, Accepted repr row r f := by
  obtain ⟨texts, oldDepartment, verifierId, actorId, htexts, -⟩ := normalizeJmlRequest_eq_some h
  exact ⟨texts.requestId, h, (jmlTexts_requestId htexts).1⟩

theorem Accepted.severity {row : JmlRow F T} {r : Text} {f : ExternalFinding F}
    (h : Accepted repr row r f) : f.severity ∈ severities := by
  obtain ⟨texts, oldDepartment, verifierId, actorId, -, rfl⟩ := normalizeJmlRequest_eq_some h.finding
  exact severity_mem texts.requestType

theorem Accepted.requestId_storedRow {row : JmlRow F T} {r : Text} {f : ExternalFinding F}
    (h : Accepted repr row r f) (found : Option (ExternalRow F T)) :
    (storedRow f row.current found).requestId = r := by
  rw [ExternalRow.requestId, storedRow_details, (accepted_iff.mp h).2]

/-- What a turn does to the table. -/
theorem bridgeRow_cases {s s' : ExternalFindings F T × BridgeResult} {row : JmlRow F T}
    (h : bridgeRow repr s row = .ok s') :
    ((∀ r f, ¬ Accepted repr row r f) ∧ s'.1 = s.1) ∨
      ∃ r f, Accepted repr row r f ∧ ∀ k, s'.1.find? k =
        if f.findingId = k then some (storedRow f row.current (s.1.find? f.findingId))
        else s.1.find? k := by
  unfold bridgeRow at h
  cases hnormalize : row.normalize repr with
  | error e =>
    rw [hnormalize] at h
    simp only at h
    split_ifs at h
    obtain rfl := Except.ok.inj h
    refine .inl ⟨fun r f hf => ?_, rfl⟩
    rw [hf.finding] at hnormalize
    cases hnormalize
  | ok found =>
    rw [hnormalize] at h
    cases found with
    | none =>
      obtain rfl := Except.ok.inj h
      refine .inl ⟨fun r f hf => ?_, rfl⟩
      rw [hf.finding] at hnormalize
      cases hnormalize
    | some f =>
      obtain ⟨r, hr⟩ := exists_accepted hnormalize
      obtain ⟨u, hu, hfind⟩ := upsertExternalFinding_spec s.1 hr.severity row.current
      obtain ⟨⟨t, created⟩, ht, h⟩ := bind_eq_ok.mp h
      obtain ⟨rfl, rfl⟩ := Prod.mk.inj (Except.ok.inj (hu.symm.trans ht))
      obtain rfl := Except.ok.inj h
      exact .inr ⟨r, f, hr, hfind⟩

/-- A turn ends well whatever the row is. -/
theorem bridgeRow_ok (repr : Text → Text) (s : ExternalFindings F T × BridgeResult)
    (row : JmlRow F T) : ∃ s', bridgeRow repr s row = .ok s' := by
  have hraises := valueErrorsOnly_normalizeJmlRequest repr row.request row.verification
    row.executionActorId
  unfold bridgeRow JmlRow.normalize
  cases hnormalize : normalizeJmlRequest repr row.request row.verification row.executionActorId with
  | error e =>
    refine ⟨_, if_pos ?_⟩
    have he := hraises e hnormalize
    cases e <;> first | rfl | exact he.elim
  | ok found =>
    cases found with
    | none => exact ⟨_, rfl⟩
    | some f =>
      obtain ⟨r, hr⟩ : ∃ r, Accepted repr row r f := exists_accepted hnormalize
      obtain ⟨u, hu, -⟩ := upsertExternalFinding_spec s.1 hr.severity row.current
      exact ⟨_, bind_eq_ok.mpr ⟨_, hu, rfl⟩⟩

theorem bridgeRows_ok (repr : Text → Text) (s : ExternalFindings F T × BridgeResult)
    (rows : List (JmlRow F T)) : ∃ s', bridgeRows repr s rows = .ok s' := by
  induction rows generalizing s with
  | nil => exact ⟨s, rfl⟩
  | cons row rows ih =>
    obtain ⟨t, ht⟩ := bridgeRow_ok repr s row
    obtain ⟨s', hs⟩ := ih t
    exact ⟨s', bind_eq_ok.mpr ⟨t, ht, hs⟩⟩

/-- Every request that was read has one outcome. -/
def BridgeResult.Balanced (r : BridgeResult) : Prop :=
  r.requestsRead = r.findingsCreated + r.findingsReassessed + r.skipped + r.errors

theorem balanced_bridgeRow {s s' : ExternalFindings F T × BridgeResult} {row : JmlRow F T}
    (hs : s.2.Balanced) (h : bridgeRow repr s row = .ok s') : s'.2.Balanced := by
  unfold BridgeResult.Balanced at hs ⊢
  unfold bridgeRow at h
  cases hnormalize : row.normalize repr with
  | error e =>
    rw [hnormalize] at h
    simp only at h
    split_ifs at h
    obtain rfl := Except.ok.inj h
    simp only
    omega
  | ok found =>
    rw [hnormalize] at h
    cases found with
    | none =>
      obtain rfl := Except.ok.inj h
      simp only
      omega
    | some f =>
      obtain ⟨⟨t, created⟩, -, h⟩ := bind_eq_ok.mp h
      obtain rfl := Except.ok.inj h
      cases created <;> simp only [BridgeResult.count] <;> split_ifs <;> omega

/-- A run reads every row and gives each of them one outcome. -/
theorem balanced_bridgeRows {s s' : ExternalFindings F T × BridgeResult} {rows : List (JmlRow F T)}
    (hs : s.2.Balanced) (h : bridgeRows repr s rows = .ok s') : s'.2.Balanced := by
  induction rows generalizing s with
  | nil =>
    obtain rfl := Except.ok.inj h
    exact hs
  | cons row rows ih =>
    obtain ⟨t, ht, h⟩ := bind_eq_ok.mp h
    exact ih (balanced_bridgeRow hs ht) h

/-! ### One finding per request -/

/-- The rows of the table are those of the accepted requests. -/
structure Bridged (repr : Text → Text) (rows : List (JmlRow F T)) (t : ExternalFindings F T) :
    Prop where
  origin : ∀ q ∈ t.rows, ∃ row ∈ rows, ∃ f, Accepted repr row q.requestId f ∧
    q.findingId = f.findingId
  stored : ∀ row ∈ rows, ∀ r f, Accepted repr row r f →
    ∃ q, t.find? f.findingId = some q ∧ q.requestId = r

/-- No accepted identifier is the prefixed form of another one. -/
def NoPrefixedForm (repr : Text → Text) (rows : List (JmlRow F T)) : Prop :=
  ∀ a ∈ rows, ∀ b ∈ rows, ∀ r s f g, Accepted repr a r f → Accepted repr b s g →
    ¬ PrefixedForm (lit "JML-") r s

theorem findingId_injective {rows : List (JmlRow F T)} (h : NoPrefixedForm repr rows)
    {a b : JmlRow F T} (ha : a ∈ rows) (hb : b ∈ rows) {r s : Text} {f g : ExternalFinding F}
    (hf : Accepted repr a r f) (hg : Accepted repr b s g) (hsame : f.findingId = g.findingId) :
    r = s := by
  rw [hf.findingId, hg.findingId, jmlFindingId, jmlFindingId] at hsame
  by_contra hne
  rcases (removeprefix_eq_iff (by decide)).mp ⟨hne, List.append_cancel_left hsame⟩ with hform | hform
  · exact h a ha b hb r s f g hf hg hform
  · exact h b hb a ha s r g f hg hf hform

theorem Bridged.step {rows : List (JmlRow F T)} {row : JmlRow F T}
    {s s' : ExternalFindings F T × BridgeResult} (hbridged : Bridged repr rows s.1)
    (hforms : NoPrefixedForm repr (rows ++ [row])) (h : bridgeRow repr s row = .ok s') :
    Bridged repr (rows ++ [row]) s'.1 := by
  have hlast : row ∈ rows ++ [row] := List.mem_append_right _ (List.mem_singleton_self row)
  rcases bridgeRow_cases h with ⟨hnone, hkept⟩ | ⟨r, f, hf, hfind⟩
  · rw [hkept]
    constructor
    · intro q hq
      obtain ⟨a, ha, horigin⟩ := hbridged.origin q hq
      exact ⟨a, List.mem_append_left _ ha, horigin⟩
    · intro a ha r f hf
      rcases List.mem_append.mp ha with ha | ha
      · exact hbridged.stored a ha r f hf
      · obtain rfl := List.mem_singleton.mp ha
        exact absurd hf (hnone r f)
  · constructor
    · intro q hq
      have hq' := hfind q.findingId
      rw [Table.find?_eq_some.mpr ⟨hq, rfl⟩] at hq'
      split_ifs at hq' with hkey
      · refine ⟨row, hlast, f, ?_, hkey.symm⟩
        rw [Option.some.inj hq', hf.requestId_storedRow]
        exact hf
      · obtain ⟨hold, -⟩ := Table.find?_eq_some.mp hq'.symm
        obtain ⟨a, ha, horigin⟩ := hbridged.origin q hold
        exact ⟨a, List.mem_append_left _ ha, horigin⟩
    · intro a ha r' g hg
      rw [hfind]
      split_ifs with hkey
      · refine ⟨_, rfl, ?_⟩
        rw [hf.requestId_storedRow]
        exact findingId_injective hforms hlast ha hf hg hkey
      · rcases List.mem_append.mp ha with ha | ha
        · exact hbridged.stored a ha r' g hg
        · obtain rfl := List.mem_singleton.mp ha
          obtain rfl : f = g := Option.some.inj (Except.ok.inj (hf.finding.symm.trans hg.finding))
          exact absurd rfl hkey

theorem NoPrefixedForm.of_append {rows after : List (JmlRow F T)}
    (h : NoPrefixedForm repr (rows ++ after)) : NoPrefixedForm repr rows :=
  fun a ha b hb => h a (List.mem_append_left _ ha) b (List.mem_append_left _ hb)

theorem bridged_of_bridgeRows {rows : List (JmlRow F T)} {s : ExternalFindings F T × BridgeResult}
    (hforms : NoPrefixedForm repr rows)
    (h : bridgeRows repr (Table.empty, BridgeResult.empty) rows = .ok s) :
    Bridged repr rows s.1 := by
  induction rows using List.reverseRecOn generalizing s with
  | nil =>
    obtain rfl := Except.ok.inj h
    exact ⟨nofun, nofun⟩
  | append_singleton rows row ih =>
    unfold bridgeRows at h ih
    rw [List.foldlM_append] at h
    obtain ⟨t, ht, h⟩ := bind_eq_ok.mp h
    rw [List.foldlM_cons] at h
    obtain ⟨t', ht', h⟩ := bind_eq_ok.mp h
    obtain rfl := Except.ok.inj h
    exact (ih hforms.of_append ht).step hforms ht'

/-- The findings of the requests are kept apart: every accepted request has its own one, in
the table as in what the normalizer returns, and storing a finding never replaces that of
another request. -/
structure KeptApart (repr : Text → Text) (rows : List (JmlRow F T)) : Prop where
  distinct : ∀ a ∈ rows, ∀ b ∈ rows, ∀ r s f g, Accepted repr a r f → Accepted repr b s g →
    r ≠ s → f.findingId ≠ g.findingId
  stored : ∃ t, bridgeRows repr (Table.empty, BridgeResult.empty) rows = .ok t ∧
    ∀ row ∈ rows, ∀ r f, Accepted repr row r f → ∃! q, q ∈ t.1.rows ∧ q.requestId = r
  kept : ∀ before row after t, rows = before ++ row :: after →
    bridgeRows repr (Table.empty, BridgeResult.empty) before = .ok t →
      ∀ r f, Accepted repr row r f → ∀ q, t.1.find? f.findingId = some q → q.requestId = r

theorem KeptApart.noPrefixedForm {rows : List (JmlRow F T)} (h : KeptApart repr rows) :
    NoPrefixedForm repr rows := by
  intro a ha b hb r s f g hf hg hform
  obtain ⟨hne, hsame⟩ := (removeprefix_eq_iff (by decide)).mpr (.inl hform)
  refine h.distinct a ha b hb r s f g hf hg hne ?_
  rw [hf.findingId, hg.findingId, jmlFindingId, jmlFindingId, hsame]

theorem NoPrefixedForm.keptApart {rows : List (JmlRow F T)} (h : NoPrefixedForm repr rows) :
    KeptApart repr rows where
  distinct := by
    intro a ha b hb r s f g hf hg hne hsame
    exact hne (findingId_injective h ha hb hf hg hsame)
  stored := by
    obtain ⟨t, ht⟩ := bridgeRows_ok repr (Table.empty, BridgeResult.empty) rows
    refine ⟨t, ht, fun row hrow r f hf => ?_⟩
    have hbridged := bridged_of_bridgeRows h ht
    obtain ⟨q, hq, hr⟩ := hbridged.stored row hrow r f hf
    obtain ⟨hmem, hkey⟩ := Table.find?_eq_some.mp hq
    refine ⟨q, ⟨hmem, hr⟩, ?_⟩
    rintro q' ⟨hmem', hr'⟩
    obtain ⟨b, hb, g, hg, hid⟩ := hbridged.origin q' hmem'
    rw [hr'] at hg
    refine List.inj_on_of_nodup_map t.1.distinct hmem' hmem ?_
    rw [hid, hg.findingId, hkey, hf.findingId]
  kept := by
    intro before row after t hsplit ht r f hf q hq
    rw [hsplit] at h
    have hbridged := bridged_of_bridgeRows h.of_append ht
    obtain ⟨hmem, hkey⟩ := Table.find?_eq_some.mp hq
    obtain ⟨b, hb, g, hg, hid⟩ := hbridged.origin q hmem
    have hrow : row ∈ before ++ row :: after := List.mem_append_right _ List.mem_cons_self
    exact findingId_injective h (List.mem_append_left _ hb) hrow hg hf (hid.symm.trans hkey)

/-- The findings of any requests are kept apart exactly when no accepted identifier is another
accepted one behind the prefix. -/
theorem keptApart_iff (repr : Text → Text) (rows : List (JmlRow F T)) :
    KeptApart repr rows ↔ NoPrefixedForm repr rows :=
  ⟨KeptApart.noPrefixedForm, NoPrefixedForm.keptApart⟩

/-- A closed and verified request to provision access. -/
def joinerRow (requestId username : String) : JmlRow Tick ℕ where
  request := [(lit "request_id", .str (lit requestId)), (lit "request_type", .str (lit "joiner")),
    (lit "employee_id", .str (lit "EMP-1001")), (lit "username", .str (lit username)),
    (lit "department", .str (lit "IT")), (lit "manager_id", .str (lit "manager-01")),
    (lit "requested_by", .str (lit "hr-01")), (lit "status", .str (lit "closed"))]
  verification := some [(lit "request_id", .str (lit requestId)),
    (lit "actor_id", .str (lit "verifier-01")), (lit "result", .str (lit "passed"))]
  executionActorId := some (lit "iam-operator-01")
  current := 0

/-- Whether a row becomes a finding. -/
def isFound {α : Type} : Except PyError (Option α) → Bool
  | .ok (some _) => true
  | _ => false

/-- Two accepted requests of two employees that share a finding. -/
theorem prefixed_request_shares_finding :
    ¬ ∀ rows : List (JmlRow Tick ℕ), KeptApart id rows := by
  intro h
  have hforms := (h [joinerRow "JML-A1" "jsmith", joinerRow "A1" "adoe"]).noPrefixedForm
  have haccepted {requestId username : String}
      (hok : isFound ((joinerRow requestId username).normalize id) = true)
      (hid : get (joinerRow requestId username).request (lit "request_id") = .str (lit requestId)) :
      ∃ f, Accepted id (joinerRow requestId username) (lit requestId) f := by
    cases hnormalize : (joinerRow requestId username).normalize id with
    | error e =>
      rw [hnormalize] at hok
      cases hok
    | ok found =>
      rw [hnormalize] at hok
      cases found with
      | none => cases hok
      | some f => exact ⟨f, hnormalize, hid⟩
  obtain ⟨f, hf⟩ : ∃ f, Accepted id (joinerRow "JML-A1" "jsmith") (lit "JML-A1") f :=
    haccepted (by decide +kernel) rfl
  obtain ⟨g, hg⟩ : ∃ g, Accepted id (joinerRow "A1" "adoe") (lit "A1") g :=
    haccepted (by decide +kernel) rfl
  exact hforms _ (by simp) _ (by simp) _ _ f g hf hg ⟨rfl, by decide⟩

end SentinelGRC.Connectors
