import SentinelGRC.Python.Clock
import SentinelGRC.Python.Hashlib
import SentinelGRC.Python.JsonLoads
import SentinelGRC.Store.Table

/-!
The `pipeline_runs` table and the hash that names a run. A run is leased to one
executor, completed with the paths of its outputs, or marked failed; the last two
statements do not ask who holds the lease or what the row says.
-/

namespace SentinelGRC.Pipeline

open Python Store

/-! ### Inputs -/

/-- Evidence files and the worker's configuration. -/
structure Inputs (F : Type) where
  /-- The bytes of an inbox file. -/
  evidence : Text → Bytes
  controls : Json F
  assets : Json F
  accessReview : Option (Json F)

section Hash

variable {F : Type} [PyFloat F]

/-- `bool(value)`. -/
def truthy : Json F → Bool
  | .null => false
  | .bool b => b
  | .int n => n ≠ 0
  | .float (.finite x) => !PyFloat.beqInt x 0
  | .float _ => true
  | .str s => !s.isEmpty
  | .arr xs => !xs.isEmpty
  | .obj fs => !fs.isEmpty

/-- `access_review or {...}`. -/
def Inputs.review (inputs : Inputs F) : Json F :=
  match inputs.accessReview with
  | some review => if truthy review then review else defaultReview
  | none => defaultReview
where
  defaultReview := .obj [(lit "schema_version", .str (lit "1.0")), (lit "users", .arr [])]

def isArray : Json F → Bool
  | .arr _ => true
  | _ => false

/-- `posture.get(name)` is present and truthy. -/
def hasField (posture : Json F) (name : Text) : Bool :=
  match posture with
  | .obj fs => (field name fs).elim false truthy
  | _ => false

def validatePipelineInputs (inputs : Inputs F) (posture : Json F) : Except PyError Unit :=
  if ¬ (hasField posture (lit "asset_id") && hasField posture (lit "hostname")) then
    .error (.valueError (lit "Posture must contain asset_id and hostname."))
  else if ¬ (isArray inputs.controls && isArray inputs.assets) then
    .error (.valueError (lit "Controls and assets must be JSON arrays."))
  else .ok ()

/-- `_input_hash` of the posture with the configuration. -/
def Inputs.inputHash (inputs : Inputs F) (posture : Json F) : Except PyError Text := do
  let text ← Json.dumps Json.compact (.obj [(lit "posture", posture), (lit "controls", inputs.controls),
    (lit "assets", inputs.assets), (lit "access_review", inputs.review)])
  let bytes ← encodeUtf8 text
  return sha256.hexdigest bytes

/-- The run hash of the evidence under a path, or what stops it before a run is claimed. -/
def Inputs.runHash (inputs : Inputs F) (path : Text) : Except PyError Text := do
  let text ← decodeUtf8 (inputs.evidence path)
  let posture ← loads text
  validatePipelineInputs inputs posture
  inputs.inputHash posture

end Hash

/-! ### The table -/

inductive RunStatus
  | running
  | completed
  | failed
  deriving DecidableEq

/-- A row of `pipeline_runs`. -/
structure PipelineRun (T : Type) where
  inputHash : Text
  ledgerRecordHash : Text
  remediationPath : Text
  ticketsPath : Text
  reportPath : Text
  processedAt : T
  status : RunStatus
  lastError : Option Text
  runLeaseUntil : T
  deriving DecidableEq

abbrev PipelineRuns (T : Type) := Table (PipelineRun T) Text PipelineRun.inputHash

/-- Where a run leaves its record and reports. -/
structure Outputs where
  ledgerRecordHash : Text
  remediationPath : Text
  ticketsPath : Text
  reportPath : Text

variable {T : Type} [Clock T]

/-- A run that `claim_pipeline_run` takes over. -/
def PipelineRun.claimable (now : T) (r : PipelineRun T) : Bool :=
  r.status = .failed || (r.status = .running && r.runLeaseUntil ≤ now)

def claimPipelineRun (runs : PipelineRuns T) (inputHash : Text) (leaseSeconds : ℤ) (now : T) :
    PipelineRuns T × Bool :=
  match runs.find? inputHash with
  | none =>
    (runs.put ⟨inputHash, [], [], [], [], now, .running, none, Clock.after now leaseSeconds⟩, true)
  | some r =>
    if r.claimable now then
      (runs.put { r with status := .running, lastError := none, processedAt := now,
                         runLeaseUntil := Clock.after now leaseSeconds }, true)
    else (runs, false)

def completePipelineRun (runs : PipelineRuns T) (inputHash : Text) (outputs : Outputs) (now : T) :
    PipelineRuns T :=
  match runs.find? inputHash with
  | none => runs
  | some r => runs.put
      { r with status := .completed, ledgerRecordHash := outputs.ledgerRecordHash,
               remediationPath := outputs.remediationPath, ticketsPath := outputs.ticketsPath,
               reportPath := outputs.reportPath, processedAt := now, lastError := none,
               runLeaseUntil := Clock.epoch }

def failPipelineRun (runs : PipelineRuns T) (inputHash error : Text) (now : T) :
    Except PyError (PipelineRuns T) :=
  if ¬ Scalar (error.take 2000) then .error .unicodeEncodeError
  else match runs.find? inputHash with
    | none => .ok runs
    | some r => .ok (runs.put { r with status := .failed, lastError := some (error.take 2000),
                                       processedAt := now, runLeaseUntil := Clock.epoch })

/-! ### What the statements do -/

/-- The run is recorded as completed. -/
def Completed (runs : PipelineRuns T) (inputHash : Text) : Prop :=
  ∃ r, runs.find? inputHash = some r ∧ r.status = .completed

omit [Clock T] in
theorem completed_put {runs : PipelineRuns T} {r : PipelineRun T} {h : Text} :
    Completed (runs.put r) h ↔ if r.inputHash = h then r.status = .completed else Completed runs h := by
  unfold Completed
  rw [Table.find?_put]
  split_ifs <;> simp

omit [Clock T] in
theorem exists_put {runs : PipelineRuns T} (r : PipelineRun T) {h : Text} {p : PipelineRun T}
    (hp : runs.find? h = some p) : ∃ p, (runs.put r).find? h = some p := by
  rw [Table.find?_put]
  split_ifs
  · exact ⟨r, rfl⟩
  · exact ⟨p, hp⟩

/-- Claiming a run completes none and takes no completion back. -/
theorem completed_claimPipelineRun (runs : PipelineRuns T) (inputHash : Text) (lease : ℤ) (now : T)
    (h : Text) : Completed (claimPipelineRun runs inputHash lease now).1 h ↔ Completed runs h := by
  unfold claimPipelineRun
  cases hr : runs.find? inputHash with
  | none =>
    rw [completed_put]
    split_ifs with heq
    · subst heq
      simp [Completed, hr]
    · rfl
  | some r =>
    simp only
    split_ifs with hc
    · have hkey := (Table.find?_eq_some.mp hr).2
      rw [completed_put]
      split_ifs with heq
      · have hopen : r.status ≠ .completed := by
          intro hcomp
          simp [PipelineRun.claimable, hcomp] at hc
        obtain rfl : inputHash = h := hkey.symm.trans heq
        simp [Completed, hr, hopen]
      · rfl
    · rfl

theorem claimPipelineRun_true {runs : PipelineRuns T} {inputHash : Text} {lease : ℤ} {now : T}
    (h : (claimPipelineRun runs inputHash lease now).2 = true) :
    ∃ r, (claimPipelineRun runs inputHash lease now).1.find? inputHash = some r := by
  revert h
  unfold claimPipelineRun
  cases hr : runs.find? inputHash with
  | none =>
    intro _
    rw [Table.find?_put, if_pos rfl]
    exact ⟨_, rfl⟩
  | some r =>
    simp only
    split_ifs
    · exact fun _ => exists_put _ hr
    · intro h
      cases h

/-- A run is refused when it is completed or another executor's lease is alive. -/
theorem claimPipelineRun_false {runs : PipelineRuns T} {inputHash : Text} {lease : ℤ} {now : T}
    (h : (claimPipelineRun runs inputHash lease now).2 = false) :
    ∃ r, runs.find? inputHash = some r ∧
      (r.status = .completed ∨ (r.status = .running ∧ now < r.runLeaseUntil)) := by
  revert h
  unfold claimPipelineRun
  cases hr : runs.find? inputHash with
  | none =>
    intro h
    cases h
  | some r =>
    simp only
    split_ifs with hc
    · intro h
      cases h
    · intro _
      refine ⟨r, rfl, ?_⟩
      unfold PipelineRun.claimable at hc
      cases hs : r.status with
      | running => exact .inr ⟨rfl, by simpa [hs] using hc⟩
      | completed => exact .inl rfl
      | failed => simp [hs] at hc

theorem exists_claimPipelineRun {runs : PipelineRuns T} (inputHash : Text) (lease : ℤ) (now : T)
    {h : Text} {p : PipelineRun T} (hp : runs.find? h = some p) :
    ∃ p, (claimPipelineRun runs inputHash lease now).1.find? h = some p := by
  unfold claimPipelineRun
  cases runs.find? inputHash with
  | none => exact exists_put _ hp
  | some r =>
    simp only
    split_ifs
    · exact exists_put _ hp
    · exact ⟨p, hp⟩

theorem completed_completePipelineRun {runs : PipelineRuns T} {inputHash : Text} {p : PipelineRun T}
    (hp : runs.find? inputHash = some p) (outputs : Outputs) (now : T) (h : Text) :
    Completed (completePipelineRun runs inputHash outputs now) h ↔ h = inputHash ∨ Completed runs h := by
  have hkey := (Table.find?_eq_some.mp hp).2
  unfold completePipelineRun
  rw [hp]
  simp only
  rw [completed_put]
  split_ifs with heq
  · simp [← hkey, ← heq]
  · have hne : h ≠ inputHash := fun he => heq (hkey.trans he.symm)
    simp [hne]

theorem exists_completePipelineRun {runs : PipelineRuns T} (inputHash : Text) (outputs : Outputs)
    (now : T) {h : Text} {p : PipelineRun T} (hp : runs.find? h = some p) :
    ∃ p, (completePipelineRun runs inputHash outputs now).find? h = some p := by
  unfold completePipelineRun
  cases runs.find? inputHash with
  | none => exact ⟨p, hp⟩
  | some r => exact exists_put _ hp

/-- Marking a run failed takes back its completion and no other. -/
theorem completed_failPipelineRun {runs runs' : PipelineRuns T} {inputHash error : Text} {now : T}
    (hrun : failPipelineRun runs inputHash error now = .ok runs') {h : Text} (hne : h ≠ inputHash)
    (hc : Completed runs h) : Completed runs' h := by
  unfold failPipelineRun at hrun
  split_ifs at hrun
  cases hr : runs.find? inputHash with
  | none =>
    rw [hr] at hrun
    obtain rfl := Except.ok.inj hrun
    exact hc
  | some r =>
    rw [hr] at hrun
    obtain rfl := Except.ok.inj hrun
    rw [completed_put, if_neg]
    · exact hc
    · rw [(Table.find?_eq_some.mp hr).2]
      exact hne.symm

theorem exists_failPipelineRun {runs runs' : PipelineRuns T} {inputHash error : Text} {now : T}
    (hrun : failPipelineRun runs inputHash error now = .ok runs') {h : Text} {p : PipelineRun T}
    (hp : runs.find? h = some p) : ∃ p, runs'.find? h = some p := by
  unfold failPipelineRun at hrun
  split_ifs at hrun
  cases hr : runs.find? inputHash with
  | none =>
    rw [hr] at hrun
    obtain rfl := Except.ok.inj hrun
    exact ⟨p, hp⟩
  | some r =>
    rw [hr] at hrun
    obtain rfl := Except.ok.inj hrun
    exact exists_put _ hp

/-! ### Rows -/

/-- The row that `complete_pipeline_run` leaves. -/
def PipelineRun.completion (r : PipelineRun T) (outputs : Outputs) (now : T) : PipelineRun T :=
  { r with status := .completed, ledgerRecordHash := outputs.ledgerRecordHash,
           remediationPath := outputs.remediationPath, ticketsPath := outputs.ticketsPath,
           reportPath := outputs.reportPath, processedAt := now, lastError := none,
           runLeaseUntil := Clock.epoch }

/-- The row that `fail_pipeline_run` leaves. -/
def PipelineRun.failure (r : PipelineRun T) (error : Text) (now : T) : PipelineRun T :=
  { r with status := .failed, lastError := some (error.take 2000), processedAt := now,
           runLeaseUntil := Clock.epoch }

theorem find?_completePipelineRun (runs : PipelineRuns T) (inputHash : Text) (outputs : Outputs)
    (now : T) : (completePipelineRun runs inputHash outputs now).find? inputHash =
      (runs.find? inputHash).map fun r => r.completion outputs now := by
  unfold completePipelineRun
  cases hr : runs.find? inputHash with
  | none => exact hr
  | some r =>
    have hkey := (Table.find?_eq_some.mp hr).2
    simp only [Option.map_some]
    rw [Table.find?_put, if_pos hkey]
    rfl

theorem find?_failPipelineRun {runs runs' : PipelineRuns T} {inputHash error : Text} {now : T}
    (h : failPipelineRun runs inputHash error now = .ok runs') :
    runs'.find? inputHash = (runs.find? inputHash).map fun r => r.failure error now := by
  unfold failPipelineRun at h
  split_ifs at h
  cases hr : runs.find? inputHash with
  | none =>
    rw [hr] at h
    obtain rfl := Except.ok.inj h
    exact hr
  | some r =>
    have hkey := (Table.find?_eq_some.mp hr).2
    rw [hr] at h
    obtain rfl := Except.ok.inj h
    rw [Table.find?_put, if_pos hkey]
    rfl

theorem scalar_of_failPipelineRun {runs runs' : PipelineRuns T} {inputHash error : Text} {now : T}
    (h : failPipelineRun runs inputHash error now = .ok runs') : Scalar (error.take 2000) := by
  unfold failPipelineRun at h
  split_ifs at h with hscalar
  exact hscalar

/-- The row of a run that was just claimed. -/
theorem find?_claimPipelineRun {runs : PipelineRuns T} {inputHash : Text} {lease : ℤ} {now : T}
    (h : (claimPipelineRun runs inputHash lease now).2 = true) :
    ∃ r, (claimPipelineRun runs inputHash lease now).1.find? inputHash = some r ∧
      r.status = .running ∧ r.runLeaseUntil = Clock.after now lease := by
  unfold claimPipelineRun at h ⊢
  cases hr : runs.find? inputHash with
  | none => exact ⟨_, by rw [Table.find?_put, if_pos rfl], rfl, rfl⟩
  | some r =>
    have hkey := (Table.find?_eq_some.mp hr).2
    rw [hr] at h
    simp only at h ⊢
    split_ifs at h ⊢ with hc
    exact ⟨_, by rw [Table.find?_put, if_pos hkey], rfl, rfl⟩

/-- A run is taken over only when it failed or its lease has expired. -/
theorem claimable_of_claim {runs : PipelineRuns T} {inputHash : Text} {lease : ℤ} {now : T}
    (h : (claimPipelineRun runs inputHash lease now).2 = true) {r : PipelineRun T}
    (hr : runs.find? inputHash = some r) : r.claimable now = true := by
  unfold claimPipelineRun at h
  rw [hr] at h
  simp only at h
  split_ifs at h with hc
  exact hc

theorem claim_of_completed {runs : PipelineRuns T} {inputHash : Text} (h : Completed runs inputHash)
    (lease : ℤ) (now : T) : (claimPipelineRun runs inputHash lease now).2 = false := by
  obtain ⟨r, hr, hstatus⟩ := h
  rw [← Bool.not_eq_true]
  intro hclaim
  have := claimable_of_claim hclaim hr
  simp [PipelineRun.claimable, hstatus] at this

omit [Clock T] in
theorem not_completed {runs : PipelineRuns T} {inputHash : Text} {r : PipelineRun T}
    (hr : runs.find? inputHash = some r) (hstatus : r.status ≠ .completed) :
    ¬ Completed runs inputHash := by
  rintro ⟨p, hp, hcompleted⟩
  obtain rfl := Option.some.inj (hr.symm.trans hp)
  exact hstatus hcompleted

/-! ### One inbox file -/

/-- A posture of a registered asset. -/
def postureInputs : Inputs Empty where
  evidence _ := (lit "\x7b\"asset_id\": \"ws-1\", \"hostname\": \"ws-1\"\x7d").map (UInt8.ofNat ·.val)
  controls := .arr []
  assets := .arr [.obj [(lit "asset_id", .str (lit "ws-1")), (lit "hostname", .str (lit "ws-1")),
    (lit "business_service", .str (lit "mail")), (lit "criticality", .str (lit "high"))]]
  accessReview := none

end SentinelGRC.Pipeline
