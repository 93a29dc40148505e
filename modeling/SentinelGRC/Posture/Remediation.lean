import SentinelGRC.Posture.Validation

/-!
The evaluation of controls on a posture, and the queue of the controls that it fails. A
finding of the queue is named after its asset and its control, joined by a colon.
-/

namespace SentinelGRC.Posture

open Python Json Contracts

variable {F : Type}

/-- What a control asks of its field: a value, or an upper bound for a number. -/
inductive Test (F : Type)
  | expected (value : Json F)
  | atMost (maxValue : ℤ ⊕ PyNum F)

/-- A control of the catalogue. -/
structure Control (F : Type) where
  id : Text
  name : Text
  owner : Text
  severity : Text
  requiredField : Text
  test : Test F
  iso27002 : Json F
  nistCsf : Json F

/-- A registered asset, with the fields that the pipeline reads. -/
structure Asset where
  assetId : Text
  hostname : Text
  businessService : Text
  criticality : Text
  deriving DecidableEq

/-- What `evaluate_control` returns. -/
structure ControlResult (F : Type) where
  controlId : Text
  controlName : Text
  owner : Text
  iso27002 : Json F
  nistCsf : Json F
  field : Text
  expected : Json F
  observed : Json F
  passed : Bool
  severity : Text
  riskScore : ℕ

/-- The order of Python numbers. -/
abbrev NumOrder (F : Type) := ℤ ⊕ PyNum F → ℤ ⊕ PyNum F → Bool

/-! ### Evaluation -/

/-- `SEVERITY_WEIGHT`. -/
def severityWeight (severity : Text) : Option ℕ :=
  if severity = lit "low" then some 1
  else if severity = lit "medium" then some 3
  else if severity = lit "high" then some 6
  else if severity = lit "critical" then some 10
  else none

/-- `CRITICALITY_MULTIPLIER`. -/
def criticalityMultiplier (criticality : Text) : Option ℕ :=
  if criticality = lit "low" then some 1
  else if criticality = lit "medium" then some 2
  else if criticality = lit "high" then some 3
  else if criticality = lit "critical" then some 4
  else none

/-- `{**posture, key: value}`. -/
def withField (posture : Fields F) (key : Text) (value : Json F) : Fields F :=
  pop posture key ++ [(key, value)]

/-- A number that is no `bool`, and not above the bound. -/
def withinBound (numLe : NumOrder F) (observed : Json F) (maxValue : ℤ ⊕ PyNum F) : Bool :=
  match observed with
  | .int n => numLe (.inl n) maxValue
  | .float x => numLe (.inr x) maxValue
  | _ => false

/-- A number as a value. -/
def numValue : ℤ ⊕ PyNum F → Json F
  | .inl n => .int n
  | .inr x => .float x

variable [PyFloat F]

/-- The outcome of a test, and what it expects. -/
def Test.run (U : UnicodeTables) (numLe : NumOrder F) (observed : Json F) : Test F → Bool × Json F
  | .expected value => (observed.pyEq value, value)
  | .atMost maxValue =>
    (withinBound numLe observed maxValue, .str (lit "<= " ++ (numValue maxValue).strText U))

/-- The risk score; the weight of the severity is read for a control that was not passed. -/
def riskScore (U : UnicodeTables) (passed : Bool) (severity criticality : Text) : Except PyError ℕ :=
  if passed then .ok 0
  else
    match severityWeight severity with
    | some weight => .ok (weight * (criticalityMultiplier (U.lower criticality)).getD 2)
    | none => .error (.keyError severity)

/-- `evaluate_control` on a posture with the criticality of its asset. -/
def evaluateControl (U : UnicodeTables) (numLe : NumOrder F) (control : Control F)
    (posture : Fields F) (criticality : Text) : Except PyError (ControlResult F) := do
  let observed := get (withField posture (lit "criticality") (.str criticality)) control.requiredField
  let outcome := control.test.run U numLe observed
  let riskScore ← riskScore U outcome.1 control.severity criticality
  return ⟨control.id, control.name, control.owner, control.iso27002, control.nistCsf,
    control.requiredField, outcome.2, observed, outcome.1, control.severity, riskScore⟩

/-! ### The queue -/

/-- An open finding of the queue. -/
structure RemediationFinding (F : Type) where
  findingId : Text
  asset : Asset
  control : ControlResult F
  status : Text

/-- What `build_remediation_queue` returns. -/
structure RemediationQueue (F : Type) where
  generatedOn : Text
  assetId : Text
  riskScore : ℕ
  findings : List (RemediationFinding F)

/-- `index_assets(assets).get(asset_id)`; of two assets under one identifier the last counts. -/
def registered (assets : List Asset) (assetId : Json F) : Option Asset :=
  match assetId with
  | .str t => assets.reverse.find? fun asset => asset.assetId = t
  | _ => none

/-- `f"{asset_id}:{control_id}"`. -/
def remediationFindingId (assetId controlId : Text) : Text := assetId ++ ofChar ':' :: controlId

/-- The finding of a control that was not passed. -/
def findingOf (asset : Asset) (control : ControlResult F) : RemediationFinding F :=
  ⟨remediationFindingId asset.assetId control.controlId, asset, control, lit "open"⟩

/-- `build_remediation_queue`, on the day `today`. -/
def buildRemediationQueue (U : UnicodeTables) (numLe : NumOrder F) (today : Text)
    (controls : List (Control F)) (posture : Fields F) (assets : List Asset) :
    Except PyError (RemediationQueue F) :=
  match registered assets (get posture (lit "asset_id")) with
  | none => .error (.valueError (lit "Asset " ++ (get posture (lit "asset_id")).strText U ++
      lit " is not registered."))
  | some asset => do
    let results ← controls.mapM fun control =>
      evaluateControl U numLe control posture asset.criticality
    let findings := (results.filter fun result => !result.passed).map (findingOf asset)
    return ⟨today, asset.assetId, (findings.map fun f => f.control.riskScore).sum, findings⟩

/-! ### Results -/

omit [PyFloat F] in
theorem registered_eq_some {assets : List Asset} {assetId : Json F} {asset : Asset}
    (h : registered assets assetId = some asset) :
    assetId = .str asset.assetId ∧ asset ∈ assets := by
  unfold registered at h
  split at h
  · rename_i t
    have hid : asset.assetId = t := by simpa using List.find?_some h
    exact ⟨by rw [hid], List.mem_reverse.mp (List.mem_of_find?_eq_some h)⟩
  · cases h

/-- A result repeats the texts of its control. -/
theorem evaluateControl_eq_ok {U : UnicodeTables} {numLe : NumOrder F} {control : Control F}
    {posture : Fields F} {criticality : Text} {result : ControlResult F}
    (h : evaluateControl U numLe control posture criticality = .ok result) :
    result.controlId = control.id ∧ result.controlName = control.name ∧
      result.owner = control.owner ∧ result.severity = control.severity := by
  obtain ⟨riskScore, -, h⟩ := bind_eq_ok.mp h
  obtain rfl := Except.ok.inj h
  exact ⟨rfl, rfl, rfl, rfl⟩

/-- A control with a supported severity is evaluated. -/
theorem exists_evaluateControl (U : UnicodeTables) (numLe : NumOrder F) {control : Control F}
    (posture : Fields F) (criticality : Text) (h : control.severity ∈ criticalities) :
    ∃ result, evaluateControl U numLe control posture criticality = .ok result := by
  have hweight : ∀ severity ∈ criticalities, (severityWeight severity).isSome = true := by decide
  obtain ⟨weight, hweight⟩ := Option.isSome_iff_exists.mp (hweight _ h)
  have hscore (passed : Bool) :
      ∃ score, riskScore U passed control.severity criticality = .ok score := by
    unfold riskScore
    rw [hweight]
    split_ifs
    · exact ⟨_, rfl⟩
    · exact ⟨_, rfl⟩
  obtain ⟨score, hscore⟩ := hscore (control.test.run U numLe
    (get (withField posture (lit "criticality") (.str criticality)) control.requiredField)).1
  exact ⟨_, bind_eq_ok.mpr ⟨score, hscore, rfl⟩⟩

/-- What a computation over a list has made. -/
theorem mem_of_mapM {α β ε : Type} {f : α → Except ε β} {as : List α} {bs : List β}
    (h : as.mapM f = .ok bs) (b : β) : b ∈ bs ↔ ∃ a ∈ as, f a = .ok b := by
  induction as generalizing bs with
  | nil =>
    obtain rfl := Except.ok.inj h
    simp
  | cons a as ih =>
    rw [List.mapM_cons] at h
    obtain ⟨c, hc, h⟩ := bind_eq_ok.mp h
    obtain ⟨cs, hcs, h⟩ := bind_eq_ok.mp h
    obtain rfl := Except.ok.inj h
    rw [List.mem_cons, ih hcs, List.exists_mem_cons_iff, hc, Except.ok.injEq, eq_comm]

/-- The findings of a queue are those of the controls that were evaluated and not passed. -/
theorem mem_findings {U : UnicodeTables} {numLe : NumOrder F} {today : Text}
    {controls : List (Control F)} {posture : Fields F} {assets : List Asset}
    {queue : RemediationQueue F}
    (h : buildRemediationQueue U numLe today controls posture assets = .ok queue) :
    ∃ asset, registered assets (get posture (lit "asset_id")) = some asset ∧
      ∀ f, f ∈ queue.findings ↔ ∃ control ∈ controls, ∃ result,
        evaluateControl U numLe control posture asset.criticality = .ok result ∧
          result.passed = false ∧ f = findingOf asset result := by
  unfold buildRemediationQueue at h
  cases hasset : registered assets (get posture (lit "asset_id")) with
  | none =>
    rw [hasset] at h
    cases h
  | some asset =>
    rw [hasset] at h
    obtain ⟨results, hresults, h⟩ := bind_eq_ok.mp h
    obtain rfl := Except.ok.inj h
    refine ⟨asset, rfl, fun f => ?_⟩
    have hmem := mem_of_mapM hresults
    simp only [List.mem_map, List.mem_filter, Bool.not_eq_eq_eq_not, Bool.not_true]
    constructor
    · rintro ⟨result, ⟨hresult, hpassed⟩, rfl⟩
      obtain ⟨control, hcontrol, hevaluate⟩ := (hmem result).mp hresult
      exact ⟨control, hcontrol, result, hevaluate, hpassed, rfl⟩
    · rintro ⟨control, hcontrol, result, hevaluate, hpassed, rfl⟩
      exact ⟨result, ⟨(hmem result).mpr ⟨control, hcontrol, hevaluate⟩, hpassed⟩, rfl⟩

end SentinelGRC.Posture
