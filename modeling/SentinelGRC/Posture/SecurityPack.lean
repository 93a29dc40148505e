import SentinelGRC.Posture.Remediation
import SentinelGRC.Python.Join

/-!
The findings of the security pack about a posture, and the identities of both kinds of posture
findings. Either joins an asset identifier and a name with a colon, which both may contain, so
two pairs share an identity exactly when one is the other cut at another colon; the security
pack hashes the joined text besides.
-/

namespace SentinelGRC.Posture

open Python Json Contracts

variable {F : Type}

/-! ### The security pack -/

/-- `_finding_id`. -/
def securityFindingId (H : Digest) (source : Text) : Except PyError Text := do
  let bytes ← encodeUtf8 source
  return lit "SEC-" ++ Governance.upperHex ((H.hexdigest bytes).take 16)

/-- `f"posture:{asset_id}:{name}"`. -/
def postureSource (assetId name : Text) : Text :=
  lit "posture:" ++ (assetId ++ ofChar ':' :: name)

/-- The checks of a posture. -/
def postureChecks (posture : Fields F) : List (Fields F) :=
  match field (lit "checks") posture with
  | some (.arr checks) => checks.filterMap fun
    | .obj fields => some fields
    | _ => none
  | _ => []

/-- `check.get("passed") is False`. -/
def isFailed (check : Fields F) : Bool :=
  match get check (lit "passed") with
  | .bool false => true
  | _ => false

variable [PyFloat F]

/-- The finding of a failed check. -/
def checkFinding (H : Digest) (U : UnicodeTables) (assetId owner severity : Text) (check : Fields F) :
    Except PyError (AlertFinding F) := do
  let name ← (get check (lit "name")).pyStr U
  let findingId ← securityFindingId H (postureSource assetId name)
  return {
    findingId
    domain := lit "security"
    source := lit "endpoint_posture"
    controlId := name
    assetId
    title := lit "Endpoint control failed: " ++ name
    riskOwner := owner
    severity
    details := [(lit "value", get check (lit "value")), (lit "error", get check (lit "error"))] }

/-- `_posture_findings`. -/
def postureFindings (H : Digest) (U : UnicodeTables) (posture : Fields F)
    (assetId owner severity : Text) : Except PyError (List (AlertFinding F)) :=
  ((postureChecks posture).filter isFailed).mapM (checkFinding H U assetId owner severity)

/-- `build_security_findings`, of a posture alone. -/
def buildSecurityFindings (H : Digest) (U : UnicodeTables) (posture : Fields F) :
    Except PyError (List (AlertFinding F)) := do
  let assetId ← ((field (lit "asset_id") posture).getD (.str (lit "unknown"))).pyStr U
  let owner ← ((get posture (lit "owner")).orElse (.str (lit "Security Operations"))).pyStr U
  let severity ← ((get posture (lit "criticality")).orElse (.str (lit "medium"))).pyStr U
  postureFindings H U posture assetId owner severity

/-! ### Identities -/

/-- A pair that is the other one cut at another colon. -/
def Recut (a c a' c' : Text) : Prop :=
  (∃ m, a' = a ++ ofChar ':' :: m ∧ c = m ++ ofChar ':' :: c') ∨
    ∃ m, a = a' ++ ofChar ':' :: m ∧ c' = m ++ ofChar ':' :: c

theorem remediationFindingId_eq_iff {a c a' c' : Text} :
    remediationFindingId a c = remediationFindingId a' c' ↔ (a = a' ∧ c = c') ∨ Recut a c a' c' :=
  append_cons_eq_append_cons_iff

theorem not_recut_self (a c : Text) : ¬ Recut a c a c := by
  rintro (⟨m, ha, -⟩ | ⟨m, ha, -⟩)
  · exact absurd (congrArg List.length ha) (by simp)
  · exact absurd (congrArg List.length ha) (by simp)

theorem postureSource_eq_iff {a c a' c' : Text} :
    postureSource a c = postureSource a' c' ↔ (a = a' ∧ c = c') ∨ Recut a c a' c' :=
  (List.append_right_inj _).trans append_cons_eq_append_cons_iff

/-- Two texts with the same sixteen digits. -/
def Collide (H : Digest) (s s' : Text) : Prop :=
  s ≠ s' ∧ securityFindingId H s = securityFindingId H s'

/-- A finding of the security pack is named after its asset and its check. -/
theorem mem_buildSecurityFindings {H : Digest} {U : UnicodeTables} {posture : Fields F}
    {findings : List (AlertFinding F)} (h : buildSecurityFindings H U posture = .ok findings)
    {g : AlertFinding F} (hg : g ∈ findings) :
    securityFindingId H (postureSource g.assetId g.controlId) = .ok g.findingId := by
  obtain ⟨assetId, -, h⟩ := bind_eq_ok.mp h
  obtain ⟨owner, -, h⟩ := bind_eq_ok.mp h
  obtain ⟨severity, -, h⟩ := bind_eq_ok.mp h
  obtain ⟨check, -, hcheck⟩ := (mem_of_mapM h g).mp hg
  obtain ⟨name, -, hcheck⟩ := bind_eq_ok.mp hcheck
  obtain ⟨findingId, hfindingId, hcheck⟩ := bind_eq_ok.mp hcheck
  obtain rfl := Except.ok.inj hcheck
  exact hfindingId

theorem findingId_of_mem {U : UnicodeTables} {numLe : NumOrder F} {today : Text}
    {controls : List (Control F)} {posture : Fields F} {assets : List Asset}
    {queue : RemediationQueue F}
    (h : buildRemediationQueue U numLe today controls posture assets = .ok queue)
    {f : RemediationFinding F} (hf : f ∈ queue.findings) :
    f.findingId = remediationFindingId f.asset.assetId f.control.controlId := by
  obtain ⟨asset, -, hmem⟩ := mem_findings h
  obtain ⟨control, -, result, -, -, rfl⟩ := (hmem f).mp hf
  rfl

/-- Findings of two queues share an identifier without sharing asset and control exactly when
their pairs are one text cut at different colons. Findings of the security pack do so for
checks, or when their hashes collide. -/
theorem finding_ids_injective_iff {H : Digest} {U : UnicodeTables} {numLe : NumOrder F}
    {today today' : Text} {controls controls' : List (Control F)} {p p' : Fields F}
    {assets assets' : List Asset} {queue queue' : RemediationQueue F}
    (hqueue : buildRemediationQueue U numLe today controls p assets = .ok queue)
    (hqueue' : buildRemediationQueue U numLe today' controls' p' assets' = .ok queue')
    {findings findings' : List (AlertFinding F)}
    (hfindings : buildSecurityFindings H U p = .ok findings)
    (hfindings' : buildSecurityFindings H U p' = .ok findings') :
    (∀ f ∈ queue.findings, ∀ f' ∈ queue'.findings,
      ((f.findingId = f'.findingId →
          f.asset.assetId = f'.asset.assetId ∧ f.control.controlId = f'.control.controlId) ↔
        ¬ Recut f.asset.assetId f.control.controlId f'.asset.assetId f'.control.controlId)) ∧
    ∀ g ∈ findings, ∀ g' ∈ findings',
      ((g.findingId = g'.findingId → g.assetId = g'.assetId ∧ g.controlId = g'.controlId) ↔
        ¬ Recut g.assetId g.controlId g'.assetId g'.controlId ∧
          ¬ Collide H (postureSource g.assetId g.controlId)
            (postureSource g'.assetId g'.controlId)) := by
  constructor
  · intro f hf f' hf'
    rw [findingId_of_mem hqueue hf, findingId_of_mem hqueue' hf', remediationFindingId_eq_iff]
    constructor
    · intro h hrecut
      obtain ⟨hasset, hcontrol⟩ := h (.inr hrecut)
      rw [hasset, hcontrol] at hrecut
      exact not_recut_self _ _ hrecut
    · rintro h (hpair | hrecut)
      · exact hpair
      · exact absurd hrecut h
  · intro g hg g' hg'
    have hid := mem_buildSecurityFindings hfindings hg
    have hid' := mem_buildSecurityFindings hfindings' hg'
    have hsame : g.findingId = g'.findingId ↔
        securityFindingId H (postureSource g.assetId g.controlId) =
          securityFindingId H (postureSource g'.assetId g'.controlId) := by
      rw [hid, hid', Except.ok.injEq]
    rw [hsame]
    constructor
    · intro h
      constructor
      · intro hrecut
        obtain ⟨hasset, hcontrol⟩ := h (by rw [postureSource_eq_iff.mpr (.inr hrecut)])
        rw [hasset, hcontrol] at hrecut
        exact not_recut_self _ _ hrecut
      · rintro ⟨hne, hcollide⟩
        obtain ⟨hasset, hcontrol⟩ := h hcollide
        exact hne (by rw [hasset, hcontrol])
    · rintro ⟨hrecut, hcollide⟩ h
      by_cases hsource : postureSource g.assetId g.controlId = postureSource g'.assetId g'.controlId
      · exact (postureSource_eq_iff.mp hsource).resolve_right hrecut
      · exact absurd ⟨hsource, h⟩ hcollide

/-! ### Postures -/

/-- A posture with an unencrypted drive and one failed check. -/
def openPosture (assetId check : Text) : Fields Tick :=
  [(lit "schema_version", .str (lit "1.0")), (lit "collected_at", .str (lit "2026-07-01T08:00:00Z")),
    (lit "asset_id", .str assetId), (lit "hostname", .str (lit "laptop-01")),
    (lit "bitlocker_system_drive", .bool false),
    (lit "firewall_all_profiles_enabled", .bool true),
    (lit "defender_realtime_enabled", .bool true), (lit "days_since_last_update", .int 3),
    (lit "checks", .arr [.obj [(lit "name", .str check), (lit "passed", .bool false),
      (lit "value", .null), (lit "error", .null)]])]

/-- A control of the system drive. -/
def driveControl (id : Text) : Control Tick :=
  ⟨id, lit "System volume encryption", lit "Endpoint Security", lit "high",
    lit "bitlocker_system_drive", .expected (.bool true), .str (lit "8.24"), .str (lit "PR.DS")⟩

def laptop (assetId : Text) : Asset :=
  ⟨assetId, lit "laptop-01", lit "Financial reporting", lit "high"⟩

/-- The queue of a posture with an unencrypted drive. -/
def openQueue (assetId id : Text) : Except PyError (RemediationQueue Tick) :=
  buildRemediationQueue asciiTables (fun _ _ => false) (lit "2026-07-01") [driveControl id]
    (openPosture assetId id) [laptop assetId]

def openFindings (assetId id : Text) : Except PyError (List (AlertFinding Tick)) :=
  buildSecurityFindings sha256 asciiTables (openPosture assetId id)

/-- The identifier, the asset and the control of each finding. -/
def queueIds (r : Except PyError (RemediationQueue Tick)) : List (Text × Text × Text) :=
  match r with
  | .ok queue => queue.findings.map fun f => (f.findingId, f.asset.assetId, f.control.controlId)
  | .error _ => []

def findingIds (r : Except PyError (List (AlertFinding Tick))) : List (Text × Text × Text) :=
  match r with
  | .ok findings => findings.map fun g => (g.findingId, g.assetId, g.controlId)
  | .error _ => []

/-- Two accepted postures of different assets whose findings have the same identifiers. -/
theorem recut_findings_share_ids :
    validatePosture asciiTables (.obj (openPosture (lit "WS:1") (lit "END"))) = .ok () ∧
    validatePosture asciiTables (.obj (openPosture (lit "WS") (lit "1:END"))) = .ok () ∧
    queueIds (openQueue (lit "WS:1") (lit "END")) = [(lit "WS:1:END", lit "WS:1", lit "END")] ∧
    queueIds (openQueue (lit "WS") (lit "1:END")) = [(lit "WS:1:END", lit "WS", lit "1:END")] ∧
    (findingIds (openFindings (lit "WS:1") (lit "END"))).map Prod.fst =
      (findingIds (openFindings (lit "WS") (lit "1:END"))).map Prod.fst ∧
    (findingIds (openFindings (lit "WS:1") (lit "END"))).map Prod.snd = [(lit "WS:1", lit "END")] ∧
    (findingIds (openFindings (lit "WS") (lit "1:END"))).map Prod.snd = [(lit "WS", lit "1:END")] := by
  decide +kernel

/-- Two laptops that fail one control. -/
theorem finding_ids_injective_laptops :
    ∃ queue queue', openQueue (lit "WS-001") (lit "END-001") = .ok queue ∧
      openQueue (lit "WS-002") (lit "END-001") = .ok queue' ∧
      ∀ f ∈ queue.findings, ∀ f' ∈ queue'.findings,
        ((f.findingId = f'.findingId →
            f.asset.assetId = f'.asset.assetId ∧ f.control.controlId = f'.control.controlId) ↔
          ¬ Recut f.asset.assetId f.control.controlId f'.asset.assetId f'.control.controlId) := by
  obtain ⟨queue, hqueue⟩ := exists_ok_of_isOk (r := openQueue (lit "WS-001") (lit "END-001"))
    (by decide +kernel)
  obtain ⟨queue', hqueue'⟩ := exists_ok_of_isOk (r := openQueue (lit "WS-002") (lit "END-001"))
    (by decide +kernel)
  obtain ⟨findings, hfindings⟩ := exists_ok_of_isOk
    (r := openFindings (lit "WS-001") (lit "END-001")) (by decide +kernel)
  obtain ⟨findings', hfindings'⟩ := exists_ok_of_isOk
    (r := openFindings (lit "WS-002") (lit "END-001")) (by decide +kernel)
  exact ⟨queue, queue', hqueue, hqueue',
    (finding_ids_injective_iff hqueue hqueue' hfindings hfindings').1⟩

end SentinelGRC.Posture
