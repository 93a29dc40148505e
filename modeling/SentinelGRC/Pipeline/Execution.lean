import SentinelGRC.Pipeline.LedgerChain
import SentinelGRC.Pipeline.Runs

/-!
Executions of `run_pipeline` on the same inputs, over one `pipeline_runs` table, one
ledger and one audit log. An execution goes through the calls of `_execute_pipeline`
that touch these stores, each of them one step; between two of them any other
execution may act, and the process may die. What the inputs are evaluated to is
brought along by the steps that use it, and the other outputs are left out.
-/

namespace SentinelGRC.Pipeline

open Python Json Store Transition
open Audit (File Ended)

variable {T F : Type} [Clock T] [PyFloat F]

/-! ### Arguments -/

/-- `str.upper` on ASCII letters. -/
def upper (c : CodePoint) : CodePoint :=
  if 0x61 ≤ c.val ∧ c.val ≤ 0x7A then ⟨c.val - 0x20, by omega⟩ else c

/-- What executions on the same inputs share, past the checks of `run_pipeline`. -/
structure Request (F : Type) [PyFloat F] where
  inputs : Inputs F
  posture : Fields F
  inputHash : Text
  loaded : Loaded (.obj posture)
  validated : validatePipelineInputs inputs (.obj posture) = .ok ()
  hashed : inputs.inputHash (.obj posture) = .ok inputHash

def Request.runId (q : Request F) : Text := lit "PL-" ++ (q.inputHash.take 12).map upper

/-- The fields that `_execute_pipeline` adds to the evidence. -/
def Request.extra (q : Request F) : Fields F :=
  [(lit "input_hash", .str q.inputHash), (lit "pipeline_run_id", .str q.runId)]

theorem Request.plain_inputHash (q : Request F) : ∀ c ∈ q.inputHash, Plain c := by
  obtain ⟨text, -, h⟩ := bind_eq_ok.mp q.hashed
  obtain ⟨bytes, -, h⟩ := bind_eq_ok.mp h
  rw [← Except.ok.inj h]
  exact Audit.plain_hexdigest sha256 bytes

theorem Request.plain_runId (q : Request F) : ∀ c ∈ q.runId, Plain c := by
  intro c hc
  rcases List.mem_append.mp hc with hc | hc
  · exact plain_lit (by decide) c hc
  · obtain ⟨d, hd, rfl⟩ := List.mem_map.mp hc
    obtain ⟨hlow, hhigh⟩ := q.plain_inputHash d (List.mem_of_mem_take hd)
    unfold upper
    split_ifs with h
    · exact ⟨show 0x20 ≤ d.val - 0x20 by omega, show d.val - 0x20 < 0x7F by omega⟩
    · exact ⟨hlow, hhigh⟩

/-- A value that was read from an input. -/
abbrev Value (F : Type) := {v : Json F // Loaded v}

omit [PyFloat F] in
theorem loaded_values (results : List (Value F)) : ∀ v ∈ results.map Subtype.val, Loaded v := by
  intro v hv
  obtain ⟨w, -, rfl⟩ := List.mem_map.mp hv
  exact w.property

section Append

variable (q : Request F) {results : List (Value F)} {recordedAt : UtcDatetime}
  {file file' : File} {record : Fields F}
  (h : appendEvidenceAtomic sha256 file q.posture (results.map Subtype.val) (some q.extra)
    recordedAt = .ok (file', record))

include h

theorem Request.hasInputHash : hasInputHash F q.inputHash (line record) = true :=
  hasInputHash_of_append q.loaded (loaded_values results) q.plain_inputHash q.plain_runId h

theorem Request.field_record_hash : ∃ hash, field (lit "record_hash") record = some (.str hash) :=
  field_record_hash_of_append q.loaded (loaded_values results) q.plain_inputHash q.plain_runId h

theorem Request.verifyLedger (hended : Ended file) :
    ∃ message, verifyLedger F sha256 file' = .ok (true, message) :=
  verifyLedger_append q.loaded (loaded_values results) q.plain_inputHash q.plain_runId hended.breaksLine h

end Append

/-- The options of one execution. -/
structure Options where
  leaseSeconds : ℤ
  remediationPath : Text
  ticketsPath : Text
  reportPath : Text
  /-- An audit log is configured. -/
  audited : Bool

def Options.outputs (o : Options) (recordHash : Text) : Outputs :=
  ⟨recordHash, o.remediationPath, o.ticketsPath, o.reportPath⟩

/-- The details of the audit record of a completed run. -/
def completedDetails (assetId : Value F) (recordHash : Text) (ticketsCreated : ℕ) : Audit.Details F where
  val := [(lit "asset_id", assetId.val), (lit "evidence_hash", .str recordHash),
    (lit "tickets_created", .int ticketsCreated)]
  property := by
    rw [distinct_obj]
    refine ⟨?_, fun f hf => ?_⟩
    · change [lit "asset_id", lit "evidence_hash", lit "tickets_created"].Nodup
      decide
    · simp only [List.mem_cons, List.not_mem_nil, or_false] at hf
      rcases hf with rfl | rfl | rfl
      · exact assetId.property.distinct
      · rfl
      · rfl

/-! ### One execution -/

/-- Where an execution stands. -/
inductive Phase (F : Type)
  /-- The run was claimed; the inputs are evaluated and the ledger is searched next. -/
  | claimed
  /-- The search found no record; the append is next. -/
  | searched
  /-- There is a record; the outputs are written and the run is completed next. -/
  | evidenced (record : Fields F)
  /-- The run was completed; its audit record is next. -/
  | completed (recordHash : Text)
  /-- An exception was raised, maybe after the run was completed; `fail_pipeline_run` is next. -/
  | failing (completed : Bool)

structure Execution (F : Type) where
  options : Options
  phase : Phase F

structure Stores (T : Type) where
  runs : PipelineRuns T
  ledger : File
  audit : File

inductive ExecutionStep (T F : Type)
  | find
  | append (results : List (Value F)) (recordedAt : UtcDatetime)
  | complete (now : T)
  | audit (now : Audit.Stamp) (assetId : Value F) (ticketsCreated : ℕ)
  /-- An exception of code that changes none of the stores. -/
  | raise
  | fail (error : Text) (now : T)
  | crash

/-- What the caller of `run_pipeline` gets. -/
inductive Answer
  | accepted (recordHash : Text)
  | duplicate
  | raised

/-- The stores after a step, where the execution then stands, and its answer once it has
returned. A step that the phase does not offer changes nothing. -/
def executionStep (q : Request F) (s : Stores T) (e : Execution F) :
    ExecutionStep T F → Stores T × Option (Execution F) × Option Answer
  | .find =>
    match e.phase with
    | .claimed =>
      match findLedgerRecord F sha256 q.inputHash s.ledger with
      | .ok none => (s, some { e with phase := .searched }, none)
      | .ok (some record) => (s, some { e with phase := .evidenced record }, none)
      | .error _ => (s, some { e with phase := .failing false }, none)
    | _ => (s, some e, none)
  | .append results recordedAt =>
    match e.phase with
    | .searched =>
      match appendEvidenceAtomic sha256 s.ledger q.posture (results.map Subtype.val) (some q.extra)
        recordedAt with
      | .ok (ledger, record) =>
        ({ s with ledger }, some { e with phase := .evidenced record }, none)
      | .error _ => (s, some { e with phase := .failing false }, none)
    | _ => (s, some e, none)
  | .complete now =>
    match e.phase with
    | .evidenced record =>
      match field (lit "record_hash") record with
      | some (.str hash) =>
        let s := { s with runs := completePipelineRun s.runs q.inputHash (e.options.outputs hash) now }
        if e.options.audited then (s, some { e with phase := .completed hash }, none)
        else (s, none, some (.accepted hash))
      | _ => (s, some { e with phase := .failing false }, none)
    | _ => (s, some e, none)
  | .audit now assetId ticketsCreated =>
    match e.phase with
    | .completed hash =>
      match Audit.append sha256 s.audit now (lit "pipeline.completed")
        (.name (lit "sentinelgrc-worker")) q.runId
        (some (completedDetails assetId hash ticketsCreated)) with
      | .ok (audit, _) => ({ s with audit }, none, some (.accepted hash))
      | .error _ => (s, some { e with phase := .failing true }, none)
    | _ => (s, some e, none)
  | .raise =>
    match e.phase with
    | .completed _ => (s, some { e with phase := .failing true }, none)
    | .failing _ => (s, some e, none)
    | _ => (s, some { e with phase := .failing false }, none)
  | .fail error now =>
    match e.phase with
    | .failing _ =>
      match failPipelineRun s.runs q.inputHash error now with
      | .ok runs => ({ s with runs }, none, some .raised)
      | .error _ => (s, none, some .raised)
    | _ => (s, some e, none)
  | .crash => (s, none, none)

/-! ### All executions -/

structure Executions (T F : Type) where
  stores : Stores T
  active : ℕ → Option (Execution F)

inductive ExecutionCall (T F : Type)
  /-- Somebody calls `run_pipeline`, which claims the run. -/
  | start (i : ℕ) (options : Options) (now : T)
  | work (i : ℕ) (step : ExecutionStep T F)

def Executions.start (q : Request F) (s : Executions T F) (i : ℕ) (options : Options) (now : T) :
    Executions T F × Option Answer :=
  match claimPipelineRun s.stores.runs q.inputHash options.leaseSeconds now with
  | (runs, true) =>
    (⟨{ s.stores with runs }, Function.update s.active i (some ⟨options, .claimed⟩)⟩, none)
  | (runs, false) => (⟨{ s.stores with runs }, s.active⟩, some .duplicate)

/-- Executions on the same inputs, any number of them at a time. -/
def executions (T : Type) {F : Type} [Clock T] [PyFloat F] (q : Request F) :
    Machine (Executions T F) (ExecutionCall T F) (Option Answer) where
  step s
    | .start i options now =>
      match s.active i with
      | some _ => (s, none)
      | none => s.start q i options now
    | .work i step =>
      match s.active i with
      | none => (s, none)
      | some e =>
        let (stores, e, answer) := executionStep q s.stores e step
        (⟨stores, Function.update s.active i e⟩, answer)

/-! ### What a step can do -/

/-- `complete_pipeline_run` was called. -/
def Phase.done : Phase F → Bool
  | .completed _ => true
  | .failing done => done
  | _ => false

/-- Everything a step can do to the stores and to the execution. -/
inductive ExecutionEffect (q : Request F) (s : Stores T) (e : Execution F) :
    ExecutionStep T F → Stores T → Option (Execution F) → Option Answer → Prop
  | stays {step} : ExecutionEffect q s e step s (some e) none
  | misses (hphase : e.phase = .claimed)
      (hfind : findLedgerRecord F sha256 q.inputHash s.ledger = .ok none) :
      ExecutionEffect q s e .find s (some { e with phase := .searched }) none
  | finds (record) (hphase : e.phase = .claimed)
      (hfind : findLedgerRecord F sha256 q.inputHash s.ledger = .ok (some record)) :
      ExecutionEffect q s e .find s (some { e with phase := .evidenced record }) none
  | appends (results recordedAt ledger record) (hphase : e.phase = .searched)
      (happend : appendEvidenceAtomic sha256 s.ledger q.posture (results.map Subtype.val)
        (some q.extra) recordedAt = .ok (ledger, record)) :
      ExecutionEffect q s e (.append results recordedAt) { s with ledger }
        (some { e with phase := .evidenced record }) none
  | completes (record hash now) (hphase : e.phase = .evidenced record)
      (hhash : field (lit "record_hash") record = some (.str hash)) (haudited : e.options.audited = true) :
      ExecutionEffect q s e (.complete now)
        { s with runs := completePipelineRun s.runs q.inputHash (e.options.outputs hash) now }
        (some { e with phase := .completed hash }) none
  | returns (record hash now) (hphase : e.phase = .evidenced record)
      (hhash : field (lit "record_hash") record = some (.str hash))
      (haudited : e.options.audited = false) :
      ExecutionEffect q s e (.complete now)
        { s with runs := completePipelineRun s.runs q.inputHash (e.options.outputs hash) now }
        none (some (.accepted hash))
  | audits (now assetId ticketsCreated hash audit record) (hphase : e.phase = .completed hash)
      (haudit : Audit.append sha256 s.audit now (lit "pipeline.completed")
        (.name (lit "sentinelgrc-worker")) q.runId
        (some (completedDetails assetId hash ticketsCreated)) = .ok (audit, record)) :
      ExecutionEffect q s e (.audit now assetId ticketsCreated) { s with audit } none
        (some (.accepted hash))
  | raises {step done} (hdone : e.phase.done = done) :
      ExecutionEffect q s e step s (some { e with phase := .failing done }) none
  | fails (error now completed runs) (hphase : e.phase = .failing completed)
      (hfail : failPipelineRun s.runs q.inputHash error now = .ok runs) :
      ExecutionEffect q s e (.fail error now) { s with runs } none (some .raised)
  | drops (error now completed) (hphase : e.phase = .failing completed)
      (hfail : ¬ Scalar (error.take 2000)) :
      ExecutionEffect q s e (.fail error now) s none (some .raised)
  | crashes : ExecutionEffect q s e .crash s none none

/-- Every step of an execution has one of the effects. -/
theorem executionStep_effect (q : Request F) (s : Stores T) (e : Execution F)
    (step : ExecutionStep T F) :
    ExecutionEffect q s e step (executionStep q s e step).1 (executionStep q s e step).2.1
      (executionStep q s e step).2.2 := by
  obtain ⟨options, phase⟩ := e
  cases step with
  | find =>
    cases phase with
    | claimed =>
      unfold executionStep
      simp only
      split
      · exact .misses rfl (by assumption)
      · exact .finds _ rfl (by assumption)
      · exact .raises rfl
    | _ => exact .stays
  | append results recordedAt =>
    cases phase with
    | searched =>
      unfold executionStep
      simp only
      split
      · exact .appends _ _ _ _ rfl (by assumption)
      · exact .raises rfl
    | _ => exact .stays
  | complete now =>
    cases phase with
    | evidenced record =>
      unfold executionStep
      simp only
      split
      · split_ifs with haudited
        · exact .completes record _ now rfl (by assumption) haudited
        · exact .returns record _ now rfl (by assumption) (by simpa using haudited)
      · exact .raises rfl
    | _ => exact .stays
  | audit now assetId ticketsCreated =>
    cases phase with
    | completed hash =>
      unfold executionStep
      simp only
      split
      · exact .audits _ _ _ _ _ _ rfl (by assumption)
      · exact .raises rfl
    | _ => exact .stays
  | raise =>
    cases phase with
    | failing completed => exact .stays
    | _ => exact .raises rfl
  | fail error now =>
    cases phase with
    | failing completed =>
      unfold executionStep
      simp only
      split
      · exact .fails _ _ completed _ rfl (by assumption)
      · rename_i e he
        refine .drops _ _ completed rfl fun hscalar => ?_
        rw [failPipelineRun, if_neg (by simpa using hscalar)] at he
        split at he <;> cases he
    | _ => exact .stays
  | crash => exact .crashes

/-- What a call does. -/
inductive CallEffect (q : Request F) (s : Executions T F) :
    ExecutionCall T F → Executions T F → Option Answer → Prop
  | busy (i options now) (hbusy : (s.active i).isSome = true) :
      CallEffect q s (.start i options now) s none
  | absent (i step) (hidle : s.active i = none) : CallEffect q s (.work i step) s none
  | claims (i options now) (hidle : s.active i = none)
      (hclaim : (claimPipelineRun s.stores.runs q.inputHash options.leaseSeconds now).2 = true) :
      CallEffect q s (.start i options now)
        ⟨{ s.stores with
            runs := (claimPipelineRun s.stores.runs q.inputHash options.leaseSeconds now).1 },
          Function.update s.active i (some ⟨options, .claimed⟩)⟩ none
  | refused (i options now) (hidle : s.active i = none)
      (hclaim : (claimPipelineRun s.stores.runs q.inputHash options.leaseSeconds now).2 = false) :
      CallEffect q s (.start i options now) s (some .duplicate)
  | works (i step e stores e' answer) (hactive : s.active i = some e)
      (heffect : ExecutionEffect q s.stores e step stores e' answer) :
      CallEffect q s (.work i step) ⟨stores, Function.update s.active i e'⟩ answer

omit [PyFloat F] in
theorem isSome_of_update {active : ℕ → Option (Execution F)} {i j : ℕ} {e : Execution F}
    {e' : Option (Execution F)} (hactive : active i = some e)
    (h : (Function.update active i e' j).isSome = true) : (active j).isSome = true := by
  rw [Function.update_apply] at h
  split_ifs at h with hj
  · rw [hj, hactive]
    rfl
  · exact h

omit [PyFloat F] in
theorem claimPipelineRun_refused {runs : PipelineRuns T} {inputHash : Text} {lease : ℤ} {now : T}
    (h : (claimPipelineRun runs inputHash lease now).2 = false) :
    (claimPipelineRun runs inputHash lease now).1 = runs := by
  unfold claimPipelineRun at h ⊢
  cases hr : runs.find? inputHash with
  | none =>
    rw [hr] at h
    cases h
  | some r =>
    rw [hr] at h
    simp only at h ⊢
    split_ifs at h ⊢ with hc
    rfl

theorem executions_effect (q : Request F) (s : Executions T F) (c : ExecutionCall T F) :
    CallEffect q s c ((executions T q).next s c) ((executions T q).answer s c) := by
  cases c with
  | start i options now =>
    cases hi : s.active i with
    | some e =>
      have hstep : (executions T q).step s (.start i options now) = (s, none) := by
        simp only [executions, hi]
      rw [Machine.next, Machine.answer, hstep]
      exact .busy i options now (by rw [hi]; rfl)
    | none =>
      have hstep : (executions T q).step s (.start i options now) = s.start q i options now := by
        simp only [executions, hi]
      rw [Machine.next, Machine.answer, hstep, Executions.start]
      cases hc : claimPipelineRun s.stores.runs q.inputHash options.leaseSeconds now with
      | mk runs granted =>
        cases granted with
        | true =>
          have := CallEffect.claims (q := q) (s := s) i options now hi (by rw [hc])
          rw [hc] at this
          exact this
        | false =>
          have hsame := claimPipelineRun_refused (congrArg Prod.snd hc)
          rw [hc] at hsame
          obtain rfl : runs = s.stores.runs := hsame
          exact .refused i options now hi (by rw [hc])
  | work i step =>
    cases hi : s.active i with
    | none =>
      have hstep : (executions T q).step s (.work i step) = (s, none) := by
        simp only [executions, hi]
      rw [Machine.next, Machine.answer, hstep]
      exact .absent i step hi
    | some e =>
      have heffect := executionStep_effect q s.stores e step
      have hstep : (executions T q).step s (.work i step) =
          (⟨(executionStep q s.stores e step).1,
            Function.update s.active i (executionStep q s.stores e step).2.1⟩,
            (executionStep q s.stores e step).2.2) := by
        simp only [executions, hi]
      rw [Machine.next, Machine.answer, hstep]
      exact .works i step e _ _ _ hi heffect

/-- The clock values of the calls, in order. -/
def ExecutionCall.time? : ExecutionCall T F → Option T
  | .start _ _ now | .work _ (.complete now) | .work _ (.fail _ now) => some now
  | _ => none

variable {q : Request F}

theorem next_append {s : Executions T F} {i : ℕ} {e : Execution F} {results : List (Value F)}
    {recordedAt : UtcDatetime} {ledger : Audit.File} {record : Fields F}
    (hactive : s.active i = some e) (hphase : e.phase = .searched)
    (happend : appendEvidenceAtomic sha256 s.stores.ledger q.posture (results.map Subtype.val)
      (some q.extra) recordedAt = .ok (ledger, record)) :
    (executions T q).next s (.work i (.append results recordedAt)) =
      ⟨{ s.stores with ledger }, Function.update s.active i (some { e with phase := .evidenced record })⟩ := by
  simp only [Machine.next, executions, hactive, executionStep, hphase, happend]

theorem next_complete (now : T) {s : Executions T F} {i : ℕ} {e : Execution F} {record : Fields F}
    {hash : Text} (hactive : s.active i = some e) (hphase : e.phase = .evidenced record)
    (hhash : field (lit "record_hash") record = some (.str hash)) (haudited : e.options.audited = true) :
    (executions T q).next s (.work i (.complete now)) =
      ⟨{ s.stores with
          runs := completePipelineRun s.stores.runs q.inputHash (e.options.outputs hash) now },
        Function.update s.active i (some { e with phase := .completed hash })⟩ := by
  simp only [Machine.next, executions, hactive, executionStep, hphase, hhash, haudited, ↓reduceIte]

/-! ### One posture -/

def postureRequest : Request Empty where
  inputs := postureInputs
  posture := [(lit "asset_id", .str (lit "ws-1")), (lit "hostname", .str (lit "ws-1"))]
  inputHash := lit "e7c878710c8987b9264c2c12d7291e6880ae8bb74b31c2b9ffa9842fd8a6bc26"
  loaded := ⟨by decide +kernel, by decide +kernel⟩
  validated := by decide +kernel
  hashed := by decide +kernel

/-- Nothing was executed yet. -/
def emptyExecutions : Executions ℤ Empty := ⟨⟨Table.empty, none, none⟩, fun _ => none⟩

def runtimeOptions : Options :=
  ⟨900, lit "runtime/remediation-queue.json", lit "runtime/tickets.json",
    lit "runtime/executive-report.json", true⟩

/-- The instant 2026-10-01T12:00:00Z. -/
def noon : UtcDatetime := ⟨⟨2026, 10, 1, year_2026, by decide, by decide⟩, 12, 0, 0, 0⟩

/-- An append of the posture succeeds on every ledger that verifies. -/
theorem exists_append_posture {file : File}
    (hverify : ∃ message, verifyLedger Empty sha256 file = .ok (true, message)) :
    ∃ file' record, appendEvidenceAtomic sha256 file postureRequest.posture
      (([] : List (Value Empty)).map Subtype.val) (some postureRequest.extra) noon = .ok (file', record) :=
  exists_append postureRequest.loaded (loaded_values []) postureRequest.plain_inputHash
    postureRequest.plain_runId hverify fun _ => rfl

end SentinelGRC.Pipeline
