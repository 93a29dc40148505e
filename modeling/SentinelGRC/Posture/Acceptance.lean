import SentinelGRC.Governance.Upsert
import SentinelGRC.Posture.SecurityPack

/-!
The findings of a queue as the pipeline hands them to governance. Every argument but one is
bounded where it comes from as governance bounds it; the identifier of a finding is composed of
two such texts and a colon, and is refused exactly when it comes out too long.
-/

namespace SentinelGRC.Posture

open Python Json Contracts Governance

variable {F : Type}

/-! ### Checked arguments -/

/-- A text that `_required_text` lets pass. -/
def Fits (limit : ℕ) (value : Text) : Prop := blank value = false ∧ value.length ≤ limit

instance (limit : ℕ) (value : Text) : Decidable (Fits limit value) :=
  inferInstanceAs (Decidable (_ ∧ _))

theorem exists_requiredText (value field : Text) (limit : ℕ) :
    (∃ b, Governance.requiredText value field limit = .ok b) ↔ Fits limit value := by
  unfold Governance.requiredText Fits
  split_ifs with h
  · refine iff_of_false nofun ?_
    rintro ⟨hblank, hlength⟩
    rcases h with h | h
    · rw [hblank] at h
      cases h
    · omega
  · rw [not_or, Bool.not_eq_true, not_lt] at h
    exact iff_of_true ⟨_, rfl⟩ h

theorem exists_severity {value : Text} :
    (∃ s, Governance.severity value = .ok s) ↔ (parseSeverity value).isSome = true := by
  unfold Governance.severity
  cases parseSeverity value with
  | none => exact iff_of_false nofun nofun
  | some s => exact iff_of_true ⟨s, rfl⟩ rfl

theorem isSome_parseSeverity (s : Severity) : (parseSeverity s.text).isSome = true := by
  cases s <;> decide

/-- The arguments of `upsert_finding`. -/
structure UpsertArgs where
  findingId : Text
  controlId : Text
  assetId : Text
  title : Text
  riskOwner : Text
  severity : Text

/-- What the checks of `upsert_finding` ask of its arguments. -/
structure UpsertArgs.Pass (a : UpsertArgs) : Prop where
  findingId : Fits maxIdentifierLength a.findingId
  controlId : Fits maxIdentifierLength a.controlId
  assetId : Fits maxIdentifierLength a.assetId
  title : Fits maxTextLength a.title
  riskOwner : Fits maxIdentifierLength a.riskOwner
  severity : (parseSeverity a.severity).isSome = true

theorem exists_checkFinding {actor : ActorContext} (hrole : actor.role ∈ [Role.admin, .analyst])
    (a : UpsertArgs) : (∃ args, Governance.checkFinding actor a.findingId a.controlId a.assetId
      a.title a.riskOwner a.severity = .ok args) ↔ a.Pass := by
  constructor
  · rintro ⟨args, h⟩
    obtain ⟨⟨⟩, -, h⟩ := bind_eq_ok.mp h
    obtain ⟨findingId, hfindingId, h⟩ := bind_eq_ok.mp h
    obtain ⟨controlId, hcontrolId, h⟩ := bind_eq_ok.mp h
    obtain ⟨assetId, hassetId, h⟩ := bind_eq_ok.mp h
    obtain ⟨title, htitle, h⟩ := bind_eq_ok.mp h
    obtain ⟨riskOwner, hriskOwner, h⟩ := bind_eq_ok.mp h
    obtain ⟨severity, hseverity, -⟩ := bind_eq_ok.mp h
    exact {
      findingId := (exists_requiredText _ _ _).mp ⟨findingId, hfindingId⟩
      controlId := (exists_requiredText _ _ _).mp ⟨controlId, hcontrolId⟩
      assetId := (exists_requiredText _ _ _).mp ⟨assetId, hassetId⟩
      title := (exists_requiredText _ _ _).mp ⟨title, htitle⟩
      riskOwner := (exists_requiredText _ _ _).mp ⟨riskOwner, hriskOwner⟩
      severity := exists_severity.mp ⟨severity, hseverity⟩ }
  · intro h
    obtain ⟨findingId, hfindingId⟩ := (exists_requiredText _ (lit "finding_id") _).mpr h.findingId
    obtain ⟨controlId, hcontrolId⟩ := (exists_requiredText _ (lit "control_id") _).mpr h.controlId
    obtain ⟨assetId, hassetId⟩ := (exists_requiredText _ (lit "asset_id") _).mpr h.assetId
    obtain ⟨title, htitle⟩ := (exists_requiredText _ (lit "title") _).mpr h.title
    obtain ⟨riskOwner, hriskOwner⟩ := (exists_requiredText _ (lit "risk_owner") _).mpr h.riskOwner
    obtain ⟨severity, hseverity⟩ := exists_severity.mpr h.severity
    refine ⟨⟨findingId, controlId, assetId, title, riskOwner, severity⟩, ?_⟩
    refine bind_eq_ok.mpr ⟨(), if_pos hrole, ?_⟩
    refine bind_eq_ok.mpr ⟨findingId, hfindingId, ?_⟩
    refine bind_eq_ok.mpr ⟨controlId, hcontrolId, ?_⟩
    refine bind_eq_ok.mpr ⟨assetId, hassetId, ?_⟩
    refine bind_eq_ok.mpr ⟨title, htitle, ?_⟩
    refine bind_eq_ok.mpr ⟨riskOwner, hriskOwner, ?_⟩
    exact bind_eq_ok.mpr ⟨severity, hseverity, rfl⟩

/-- The checks of `upsert_finding`. -/
def UpsertArgs.check (a : UpsertArgs) (actor : ActorContext) :
    Except PyError (FindingArgs × FindingArgs) :=
  checkUpsert actor a.findingId a.controlId a.assetId a.title a.riskOwner a.severity

/-- The checks that are made again on checked arguments pass. -/
theorem exists_check {actor : ActorContext} (hrole : actor.role ∈ [Role.admin, .analyst])
    (a : UpsertArgs) : (∃ args, a.check actor = .ok args) ↔ a.Pass := by
  constructor
  · rintro ⟨args, h⟩
    obtain ⟨first, hfirst, -⟩ := bind_eq_ok.mp h
    exact (exists_checkFinding hrole a).mp ⟨first, hfirst⟩
  · intro h
    obtain ⟨first, hfirst⟩ := (exists_checkFinding hrole a).mpr h
    have hagain : UpsertArgs.Pass ⟨first.findingId.text, first.controlId.text, first.assetId.text,
        first.title.text, first.riskOwner.text, first.severity.text⟩ := {
      findingId := ⟨first.findingId.nonblank, first.findingId.short⟩
      controlId := ⟨first.controlId.nonblank, first.controlId.short⟩
      assetId := ⟨first.assetId.nonblank, first.assetId.short⟩
      title := ⟨first.title.nonblank, first.title.short⟩
      riskOwner := ⟨first.riskOwner.nonblank, first.riskOwner.short⟩
      severity := isSome_parseSeverity first.severity }
    obtain ⟨again, hagain⟩ := (exists_checkFinding hrole _).mpr hagain
    exact ⟨(first, again), bind_eq_ok.mpr ⟨first, hfirst, bind_eq_ok.mpr ⟨again, hagain, rfl⟩⟩⟩

/-! ### The calls of the pipeline -/

/-- `ActorContext("sentinelgrc-pipeline", "analyst", "system")`. -/
def pipelineActor : ActorContext :=
  ⟨lit "sentinelgrc-pipeline", .analyst, lit "system", by decide, by decide⟩

/-- `value or other` on texts. -/
def textOr (value other : Text) : Text := if value.isEmpty then other else value

/-- The arguments with which `_execute_pipeline` calls `upsert_finding`. -/
def upsertArgs (f : RemediationFinding F) : UpsertArgs where
  findingId := f.findingId
  controlId := textOr f.control.controlId (lit "legacy")
  assetId := f.asset.assetId
  title := textOr f.control.controlName f.findingId
  riskOwner := textOr f.control.owner (lit "Security Operations")
  severity := textOr f.control.severity (lit "medium")

/-- A control with an identifier, a name and an owner within the bounds, and a supported
severity. -/
structure Control.WellFormed (c : Control F) : Prop where
  id : Fits 128 c.id
  name : Fits 4096 c.name
  owner : Fits 128 c.owner
  severity : c.severity ∈ criticalities

theorem textOr_of_isEmpty_eq_false {value : Text} (h : value.isEmpty = false) (other : Text) :
    textOr value other = value := by
  rw [textOr, h]
  rfl

theorem Fits.isEmpty_eq_false {limit : ℕ} {value : Text} (h : Fits limit value) :
    value.isEmpty = false := by
  rw [← Bool.not_eq_true]
  intro hempty
  rw [List.isEmpty_iff.mp hempty] at h
  exact absurd h.1 (by decide)

theorem blank_of_mem {t : Text} {c : CodePoint} (hc : c ∈ t) (hspace : isSpace c = false) :
    blank t = false := by
  rw [← Bool.not_eq_true, blank_iff]
  intro h
  rw [h c hc] at hspace
  cases hspace

theorem fits_of_isCanonicalText {t : Text} {maximum : ℕ}
    (h : isCanonicalText (.str t : Json F) maximum = true) : Fits maximum t := by
  simp only [isCanonicalText, canonicalText, Bool.and_eq_true, decide_eq_true_eq] at h
  obtain ⟨⟨-, hlength⟩, ⟨hhead, -⟩, -⟩ := h
  refine ⟨?_, hlength⟩
  cases t with
  | nil => cases hhead
  | cons c t =>
    have htext : isEvidenceText c = true := hhead
    rw [isEvidenceText, Bool.and_eq_true, Bool.not_eq_true'] at htext
    exact blank_of_mem List.mem_cons_self htext.1

theorem fits_remediationFindingId {a c : Text} :
    Fits maxIdentifierLength (remediationFindingId a c) ↔ a.length + 1 + c.length ≤ 128 := by
  have hcolon : ofChar ':' ∈ remediationFindingId a c :=
    List.mem_append_right _ List.mem_cons_self
  have hlength : (remediationFindingId a c).length = a.length + 1 + c.length := by
    rw [remediationFindingId, List.length_append, List.length_cons]
    omega
  rw [Fits, hlength]
  exact and_iff_right (blank_of_mem hcolon (by decide))

theorem isSome_parseSeverity_of_mem {severity : Text} (h : severity ∈ criticalities) :
    (parseSeverity severity).isSome = true := by
  have hall : ∀ severity ∈ criticalities, (parseSeverity severity).isSome = true := by decide
  exact hall severity h

theorem isEmpty_eq_false_of_mem {severity : Text} (h : severity ∈ criticalities) :
    severity.isEmpty = false := by
  have hall : ∀ severity ∈ criticalities, severity.isEmpty = false := by decide
  exact hall severity h

variable [PyFloat F]

/-- The control fails on the posture of the asset. -/
def Control.Fails (c : Control F) (U : UnicodeTables) (numLe : NumOrder F) (posture : Fields F)
    (asset : Asset) : Prop :=
  (c.test.run U numLe (get (withField posture (lit "criticality") (.str asset.criticality))
    c.requiredField)).1 = false

theorem passed_evaluateControl {U : UnicodeTables} {numLe : NumOrder F} {c : Control F}
    {posture : Fields F} {asset : Asset} {result : ControlResult F}
    (h : evaluateControl U numLe c posture asset.criticality = .ok result) :
    result.passed = false ↔ c.Fails U numLe posture asset := by
  obtain ⟨riskScore, -, h⟩ := bind_eq_ok.mp h
  obtain rfl := Except.ok.inj h
  exact Iff.rfl

/-- The arguments for a finding of a well-formed control pass when its identifier is short enough. -/
theorem pass_upsertArgs_iff {U : UnicodeTables} {numLe : NumOrder F} {c : Control F}
    (hc : c.WellFormed) {posture : Fields F} {asset : Asset} (hasset : Fits 128 asset.assetId)
    {result : ControlResult F}
    (h : evaluateControl U numLe c posture asset.criticality = .ok result) :
    (upsertArgs (findingOf asset result)).Pass ↔ asset.assetId.length + 1 + c.id.length ≤ 128 := by
  obtain ⟨hid, hname, howner, hseverity⟩ := evaluateControl_eq_ok h
  have hargs : upsertArgs (findingOf asset result) =
      ⟨remediationFindingId asset.assetId c.id, c.id, asset.assetId, c.name, c.owner, c.severity⟩ := by
    have hnonempty := isEmpty_eq_false_of_mem hc.severity
    simp only [upsertArgs, findingOf, hid, hname, howner, hseverity,
      textOr_of_isEmpty_eq_false hc.id.isEmpty_eq_false,
      textOr_of_isEmpty_eq_false hc.name.isEmpty_eq_false,
      textOr_of_isEmpty_eq_false hc.owner.isEmpty_eq_false, textOr_of_isEmpty_eq_false hnonempty]
  rw [hargs, ← fits_remediationFindingId]
  constructor
  · intro hpass
    exact hpass.findingId
  · intro hfits
    exact {
      findingId := hfits
      controlId := hc.id
      assetId := hasset
      title := hc.name
      riskOwner := hc.owner
      severity := isSome_parseSeverity_of_mem hc.severity }

theorem exists_queue (U : UnicodeTables) (numLe : NumOrder F) (today : Text)
    {controls : List (Control F)} (hcontrols : ∀ c ∈ controls, c.WellFormed) {posture : Fields F}
    {assets : List Asset} {asset : Asset}
    (hasset : registered assets (get posture (lit "asset_id")) = some asset) :
    ∃ queue, buildRemediationQueue U numLe today controls posture assets = .ok queue := by
  have hresults : ∃ results, controls.mapM (fun c =>
      evaluateControl U numLe c posture asset.criticality) = .ok results := by
    induction controls with
    | nil => exact ⟨[], rfl⟩
    | cons c controls ih =>
      obtain ⟨hc, hrest⟩ := List.forall_mem_cons.mp hcontrols
      obtain ⟨result, hresult⟩ := exists_evaluateControl U numLe posture asset.criticality hc.severity
      obtain ⟨results, hresults⟩ := ih hrest
      refine ⟨result :: results, ?_⟩
      rw [List.mapM_cons]
      exact bind_eq_ok.mpr ⟨result, hresult, bind_eq_ok.mpr ⟨results, hresults, rfl⟩⟩
  obtain ⟨results, hresults⟩ := hresults
  unfold buildRemediationQueue
  rw [hasset]
  exact ⟨_, bind_eq_ok.mpr ⟨results, hresults, rfl⟩⟩

/-- The calls for an accepted posture pass the checks exactly when the identifiers that are
composed for the failed controls are short enough. -/
theorem calls_pass_iff (U : UnicodeTables) (numLe : NumOrder F) (today : Text)
    {controls : List (Control F)} (hcontrols : ∀ c ∈ controls, c.WellFormed) {posture : Fields F}
    (haccepted : validatePosture U (.obj posture) = .ok ()) {assets : List Asset} {asset : Asset}
    (hregistered : registered assets (get posture (lit "asset_id")) = some asset) :
    ∃ queue, buildRemediationQueue U numLe today controls posture assets = .ok queue ∧
      ((∀ f ∈ queue.findings, ∃ args, (upsertArgs f).check pipelineActor = .ok args) ↔
        ∀ c ∈ controls, c.Fails U numLe posture asset →
          asset.assetId.length + 1 + c.id.length ≤ 128) := by
  obtain ⟨queue, hqueue⟩ := exists_queue U numLe today hcontrols hregistered
  obtain ⟨asset', hasset', hmem⟩ := mem_findings hqueue
  obtain rfl : asset = asset' := Option.some.inj (hregistered.symm.trans hasset')
  obtain ⟨t, hget, hcanonical, -⟩ := assetId_of_validatePosture haccepted
  have hassetId : Fits 128 asset.assetId := by
    have hid := (registered_eq_some hregistered).1
    rw [hget] at hid
    rw [← Json.str.inj hid]
    exact fits_of_isCanonicalText hcanonical
  have hrole : pipelineActor.role ∈ [Role.admin, .analyst] := by decide
  refine ⟨queue, hqueue, ?_⟩
  constructor
  · intro h c hc hfails
    obtain ⟨result, hresult⟩ :=
      exists_evaluateControl U numLe posture asset.criticality (hcontrols c hc).severity
    have hfinding := (hmem (findingOf asset result)).mpr
      ⟨c, hc, result, hresult, (passed_evaluateControl hresult).mpr hfails, rfl⟩
    have hpass := (exists_check hrole _).mp (h _ hfinding)
    exact (pass_upsertArgs_iff (hcontrols c hc) hassetId hresult).mp hpass
  · intro h f hf
    obtain ⟨c, hc, result, hresult, hpassed, rfl⟩ := (hmem f).mp hf
    refine (exists_check hrole _).mpr ?_
    exact (pass_upsertArgs_iff (hcontrols c hc) hassetId hresult).mpr
      (h c hc ((passed_evaluateControl hresult).mp hpassed))

/-! ### Long identifiers -/

theorem wellFormed_driveControl {id : Text} (h : Fits 128 id) : (driveControl id).WellFormed where
  id := h
  name := by
    show Fits 4096 (lit "System volume encryption")
    decide
  owner := by
    show Fits 128 (lit "Endpoint Security")
    decide
  severity := by
    show lit "high" ∈ criticalities
    decide

/-- Whether the calls for a queue pass the checks. -/
def callsPass (r : Except PyError (RemediationQueue Tick)) : List Bool :=
  match r with
  | .ok queue => queue.findings.map fun f => ((upsertArgs f).check pipelineActor).isOk
  | .error _ => []

/-- An accepted posture and a well-formed control whose finding is refused. -/
theorem long_finding_id_refused :
    validatePosture asciiTables
        (.obj (openPosture (List.replicate 125 (ofChar 'A')) (lit "END-001"))) = .ok () ∧
      (driveControl (lit "END-001")).WellFormed ∧
      callsPass (openQueue (List.replicate 125 (ofChar 'A')) (lit "END-001")) = [false] :=
  ⟨by decide +kernel, wellFormed_driveControl (by decide), by decide +kernel⟩

/-- A short identifier passes. -/
theorem calls_pass_short :
    ∃ queue, openQueue (lit "WS-001") (lit "END-001") = .ok queue ∧
      ∀ f ∈ queue.findings, ∃ args, (upsertArgs f).check pipelineActor = .ok args := by
  have hcontrols : ∀ c ∈ [driveControl (lit "END-001")], c.WellFormed := by
    intro c hc
    rw [List.mem_singleton.mp hc]
    exact wellFormed_driveControl (by decide)
  have haccepted : validatePosture asciiTables
      (.obj (openPosture (lit "WS-001") (lit "END-001"))) = .ok () := by decide +kernel
  have hregistered : registered [laptop (lit "WS-001")]
      (get (openPosture (lit "WS-001") (lit "END-001")) (lit "asset_id")) =
      some (laptop (lit "WS-001")) := by decide +kernel
  obtain ⟨queue, hqueue, hpass⟩ := calls_pass_iff asciiTables (fun _ _ => false) (lit "2026-07-01")
    hcontrols haccepted hregistered
  refine ⟨queue, hqueue, hpass.mpr fun c hc _ => ?_⟩
  rw [List.mem_singleton.mp hc]
  decide

end SentinelGRC.Posture
