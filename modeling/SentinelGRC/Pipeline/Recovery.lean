import SentinelGRC.Audit.Checks
import SentinelGRC.Pipeline.Execution

/-!
What an interrupted execution leaves behind, and what repeating the job makes of it.
One worker executes the job again and again, each time after the lease of the run has
expired, until it is told that the run is done. The ledger record and the completed
row are made up for whatever was interrupted. The audit record is written last and
only by the execution that completes the run, so it is lost exactly when that
execution dies, or cannot even mark the run failed, between the two.
-/

namespace SentinelGRC.Pipeline

open Python Json Store Transition
open Audit (File Ended fileText)

variable {T F : Type} [Clock T] [PyFloat F]

/-! ### Audit records of a run -/

/-- The line reads as the audit record of a completed run. -/
def isCompletion (F : Type) [PyFloat F] (runId line : Text) : Bool :=
  match loads (F := F) line with
  | .ok (.obj record) => (get record (lit "event_type")).pyEq (.str (lit "pipeline.completed")) &&
      (get record (lit "target")).pyEq (.str runId)
  | _ => false

/-- How many audit records say that the run was completed. -/
def countCompletions (F : Type) [PyFloat F] (runId : Text) (file : File) : ℕ :=
  match fileText file with
  | .ok text => (text.splitOn 0xA).countP (isCompletion F runId)
  | .error _ => 0

theorem isCompletion_line {H : Digest} {previous hash eventId runId : Text} {recordedAt : UtcDatetime}
    {actor : Audit.Actor} {details : Option (Audit.Details F)}
    (h : Audit.Sealed H previous (Audit.recordBody eventId recordedAt (lit "pipeline.completed") actor
      runId details (.str previous)) hash) :
    isCompletion F runId (Audit.line (Audit.hashed (Audit.recordBody eventId recordedAt
      (lit "pipeline.completed") actor runId details (.str previous)) hash)) = true := by
  have hget (key : Text) (hne : key ≠ lit "event_hash") :
      get (Audit.hashed (Audit.recordBody eventId recordedAt (lit "pipeline.completed") actor runId
        details (.str previous)) hash) key =
      get (Audit.recordBody eventId recordedAt (lit "pipeline.completed") actor runId details
        (.str previous)) key := by
    rw [← get_pop hne, h.pop_event_hash]
  rw [isCompletion, h.loads_line]
  simp only [get_sortDict h.nodup]
  rw [hget _ (by decide), hget _ (by decide)]
  have htype : get (Audit.recordBody eventId recordedAt (lit "pipeline.completed") actor runId details
      (.str previous)) (lit "event_type") = .str (lit "pipeline.completed") := rfl
  have htarget : get (Audit.recordBody eventId recordedAt (lit "pipeline.completed") actor runId details
      (.str previous)) (lit "target") = .str runId := rfl
  rw [htype, htarget, sortKeys, sortKeys, pyEq_str.mpr rfl, pyEq_str.mpr rfl]
  rfl

/-- The audit record of a completed run is one more of them. -/
theorem countCompletions_append {H : Digest} {file file' : File} {now : Audit.Stamp} {runId : Text}
    {actor : Audit.Actor} {details : Option (Audit.Details F)} {record : Fields F}
    (hended : Ended file)
    (h : Audit.append H file now (lit "pipeline.completed") actor runId details = .ok (file', record)) :
    countCompletions F runId file' = countCompletions F runId file + 1 := by
  obtain ⟨seed, -, h⟩ := Audit.append_eq_ok.mp h
  obtain ⟨previous, hash, text, hsealed, rfl, htext, htext'⟩ := Audit.sealed_of_appendRecord h
  obtain ⟨text', htext'', hterminated⟩ := hended
  obtain rfl := Except.ok.inj (htext.symm.trans htext'')
  have hline : (0xA : CodePoint) ∉ Audit.line (Audit.hashed (Audit.recordBody
      ((H.hexdigest seed).take 24) now.recordedAt (lit "pipeline.completed") actor runId details
      (.str previous)) hash) := by
    intro hmem
    exact absurd (le_of_mem_render _ _ hmem) (by decide)
  simp only [countCompletions, htext, htext', countP_splitOn_append _ hterminated hline,
    isCompletion_line hsealed, ↓reduceIte]

theorem ended_audit {H : Digest} {file file' : File} {now : Audit.Stamp} {eventType target : Text}
    {actor : Audit.Actor} {details : Option (Audit.Details F)} {record : Fields F}
    (h : Audit.append H file now eventType actor target details = .ok (file', record)) :
    Ended file' := by
  obtain ⟨seed, -, h⟩ := Audit.append_eq_ok.mp h
  obtain ⟨previous, hash, text, -, rfl, -, htext⟩ := Audit.sealed_of_appendRecord h
  exact ⟨_, htext, terminated_append _ _⟩

/-! ### One worker -/

/-- The only worker calls `run_pipeline`, with an audit log, and repeats the job no sooner
than the lease of the run has expired. -/
def Repeats (q : Request F) (s : Executions T F) : ExecutionCall T F → Prop
  | .start _ options now => (∀ i, s.active i = none) ∧ options.audited = true ∧
      ∀ r, s.stores.runs.find? q.inputHash = some r → r.status = .running → r.runLeaseUntil ≤ now
  | .work _ _ => True

/-- An execution that has completed the run and has its audit record before it neither dies
nor fails to mark the run failed. -/
def Survives (s : Executions T F) : ExecutionCall T F → Prop
  | .work i .crash => ∀ e, s.active i = some e → e.phase.done = false
  | .work i (.fail error _) =>
    ∀ e, s.active i = some e → e.phase.done = true → Scalar (error.take 2000)
  | _ => True

/-- The state that an execution without interruption leaves. -/
structure Finished (q : Request F) (s : Stores T) : Prop where
  completed : Completed s.runs q.inputHash
  recorded : countRecords F q.inputHash s.ledger = 1
  audited : countCompletions F q.runId s.audit = 1

/-- A call that is told that the run is done leaves the final state. -/
def AcknowledgesFinished (q : Request F) (s : Executions T F) (c : ExecutionCall T F) : Prop :=
  match (executions T q).answer s c with
  | some (.accepted _) | some .duplicate => Finished q ((executions T q).next s c).stores
  | _ => True

/-! ### What is kept -/

/-- How far an execution has come. -/
structure Progress (q : Request F) (s : Stores T) (e : Execution F) : Prop where
  audited : e.options.audited = true
  row : ∃ r, s.runs.find? q.inputHash = some r
  completed : Completed s.runs q.inputHash ↔ e.phase.done = true
  unaudited : countCompletions F q.runId s.audit = 0
  recorded : match e.phase with
    | .searched => countRecords F q.inputHash s.ledger = 0
    | .evidenced _ | .completed _ | .failing true => countRecords F q.inputHash s.ledger = 1
    | _ => True

/-- What holds between the steps of one worker. -/
structure Recoverable (q : Request F) (s : Executions T F) : Prop where
  single : ∀ i j, (s.active i).isSome = true → (s.active j).isSome = true → i = j
  ledger : Ended s.stores.ledger
  audit : Ended s.stores.audit
  atMostOne : countRecords F q.inputHash s.stores.ledger ≤ 1
  active : ∀ i e, s.active i = some e → Progress q s.stores e
  idle : (∀ i, s.active i = none) → Finished q s.stores ∨
    (¬ Completed s.stores.runs q.inputHash ∧ countCompletions F q.runId s.stores.audit = 0)

variable {q : Request F} {s : Executions T F}

omit [Clock T] in
/-- The worker's execution goes on. -/
theorem Recoverable.proceeds (h : Recoverable q s) {i : ℕ} {e e' : Execution F} {stores : Stores T}
    (hactive : s.active i = some e) (hledger : Ended stores.ledger) (haudit : Ended stores.audit)
    (hcount : countRecords F q.inputHash stores.ledger ≤ 1) (hprogress : Progress q stores e') :
    Recoverable q ⟨stores, Function.update s.active i (some e')⟩ where
  single j k hj hk := h.single j k (isSome_of_update hactive hj) (isSome_of_update hactive hk)
  ledger := hledger
  audit := haudit
  atMostOne := hcount
  active j e₁ hj := by
    have hsome : (Function.update s.active i (some e') j).isSome = true := by
      rw [show Function.update s.active i (some e') j = some e₁ from hj]
      rfl
    obtain rfl : j = i := h.single j i (isSome_of_update hactive hsome) (by rw [hactive]; rfl)
    simp only [Function.update_self, Option.some.injEq] at hj
    subst hj
    exact hprogress
  idle hidle := by
    have hi := hidle i
    simp only [Function.update_self] at hi
    cases hi

omit [Clock T] in
/-- The worker's execution is over. -/
theorem Recoverable.ends (h : Recoverable q s) {i : ℕ} {e : Execution F} {stores : Stores T}
    (hactive : s.active i = some e) (hledger : Ended stores.ledger) (haudit : Ended stores.audit)
    (hcount : countRecords F q.inputHash stores.ledger ≤ 1)
    (hover : Finished q stores ∨
      (¬ Completed stores.runs q.inputHash ∧ countCompletions F q.runId stores.audit = 0)) :
    Recoverable q ⟨stores, Function.update s.active i none⟩ where
  single j k hj hk := h.single j k (isSome_of_update hactive hj) (isSome_of_update hactive hk)
  ledger := hledger
  audit := haudit
  atMostOne := hcount
  active j e₁ hj := by
    have hsome : (Function.update s.active i none j).isSome = true := by
      rw [show Function.update s.active i none j = some e₁ from hj]
      rfl
    obtain rfl : j = i := h.single j i (isSome_of_update hactive hsome) (by rw [hactive]; rfl)
    simp only [Function.update_self] at hj
    cases hj
  idle _ := hover

theorem Recoverable.claims (h : Recoverable q s) {i : ℕ} {options : Options} {now : T}
    (hidle : ∀ j, s.active j = none) (haudited : options.audited = true)
    (hclaim : (claimPipelineRun s.stores.runs q.inputHash options.leaseSeconds now).2 = true) :
    Recoverable q ⟨{ s.stores with
        runs := (claimPipelineRun s.stores.runs q.inputHash options.leaseSeconds now).1 },
      Function.update s.active i (some ⟨options, .claimed⟩)⟩ := by
  have hopen : ¬ Completed s.stores.runs q.inputHash := by
    intro hcompleted
    rw [claim_of_completed hcompleted] at hclaim
    cases hclaim
  have hcount : countCompletions F q.runId s.stores.audit = 0 := by
    rcases h.idle hidle with hfinished | ⟨-, hcount⟩
    · exact absurd hfinished.completed hopen
    · exact hcount
  have hself : ∀ j, (Function.update s.active i (some ⟨options, .claimed⟩) j).isSome = true → j = i := by
    intro j hj
    by_contra hne
    rw [Function.update_of_ne hne, hidle j] at hj
    cases hj
  constructor
  · intro j k hj hk
    rw [hself j hj, hself k hk]
  · exact h.ledger
  · exact h.audit
  · exact h.atMostOne
  · intro j e hj
    obtain rfl : j = i := by
      refine hself j ?_
      rw [show Function.update s.active i (some ⟨options, .claimed⟩) j = some e from hj]
      rfl
    simp only [Function.update_self, Option.some.injEq] at hj
    subst hj
    refine ⟨haudited, claimPipelineRun_true hclaim, ?_, hcount, trivial⟩
    rw [completed_claimPipelineRun]
    exact ⟨fun hcompleted => absurd hcompleted hopen, fun hdone => by cases hdone⟩
  · intro hnone
    have hi := hnone i
    simp only [Function.update_self] at hi
    cases hi

/-- What one step of the worker preserves. -/
theorem recoverable_next {c : ExecutionCall T F} (hrepeats : Repeats q s c) (hsurvives : Survives s c)
    (h : Recoverable q s) : Recoverable q ((executions T q).next s c) := by
  have heffect := executions_effect q s c
  revert heffect
  generalize (executions T q).next s c = s'
  generalize (executions T q).answer s c = answer
  intro heffect
  cases heffect with
  | busy i options now hbusy => exact h
  | absent i step hidle => exact h
  | refused i options now hidle hclaim => exact h
  | claims i options now hidle hclaim => exact h.claims hrepeats.1 hrepeats.2.1 hclaim
  | works i step e stores e' answer hactive heffect =>
    have hp := h.active i e hactive
    cases heffect with
    | stays => exact h.proceeds hactive h.ledger h.audit h.atMostOne hp
    | misses hphase hfind =>
      refine h.proceeds hactive h.ledger h.audit h.atMostOne
        ⟨hp.audited, hp.row, ?_, hp.unaudited, countRecords_of_none hfind⟩
      rw [hp.completed, hphase]
      rfl
    | finds record hphase hfind =>
      refine h.proceeds hactive h.ledger h.audit h.atMostOne
        ⟨hp.audited, hp.row, ?_, hp.unaudited, ?_⟩
      · rw [hp.completed, hphase]
        rfl
      · have hpos := countRecords_of_some hfind
        have hle := h.atMostOne
        change countRecords F q.inputHash s.stores.ledger = 1
        omega
    | appends results recordedAt ledger record hphase happend =>
      have hzero := hp.recorded
      rw [hphase] at hzero
      have hone := countRecords_append h.ledger happend (q.hasInputHash happend)
      rw [hzero] at hone
      refine h.proceeds hactive (ended_append happend) h.audit hone.le
        ⟨hp.audited, hp.row, ?_, hp.unaudited, hone⟩
      rw [hp.completed, hphase]
      rfl
    | completes record hash now hphase hhash haudited =>
      obtain ⟨r, hr⟩ := hp.row
      have hone := hp.recorded
      rw [hphase] at hone
      refine h.proceeds hactive h.ledger h.audit h.atMostOne
        ⟨haudited, exists_completePipelineRun _ _ _ hr, ?_, hp.unaudited, hone⟩
      exact ⟨fun _ => rfl, fun _ => (completed_completePipelineRun hr _ _ _).mpr (.inl rfl)⟩
    | returns record hash now hphase hhash haudited =>
      rw [hp.audited] at haudited
      cases haudited
    | audits now assetId ticketsCreated hash audit record hphase haudit =>
      have hone := hp.recorded
      rw [hphase] at hone
      have hcompleted : Completed s.stores.runs q.inputHash := hp.completed.mpr (by rw [hphase]; rfl)
      have hcount := countCompletions_append h.audit haudit
      rw [hp.unaudited] at hcount
      exact h.ends hactive h.ledger (ended_audit haudit) h.atMostOne (.inl ⟨hcompleted, hone, hcount⟩)
    | @raises _ done hdone =>
      refine h.proceeds hactive h.ledger h.audit h.atMostOne
        ⟨hp.audited, hp.row, ?_, hp.unaudited, ?_⟩
      · rw [hp.completed, hdone]
        rfl
      · cases done with
        | false => trivial
        | true =>
          have hone := hp.recorded
          revert hone hdone
          cases e.phase with
          | completed hash => exact fun _ hone => hone
          | failing completed =>
            rintro rfl hone
            exact hone
          | _ => exact fun hdone => by cases hdone
    | fails error now done runs hphase hfail =>
      obtain ⟨r, hr⟩ := hp.row
      have hrow := find?_failPipelineRun hfail
      rw [hr] at hrow
      exact h.ends hactive h.ledger h.audit h.atMostOne
        (.inr ⟨not_completed hrow (by simp [PipelineRun.failure]), hp.unaudited⟩)
    | drops error now done hphase hfail =>
      have hdone : done ≠ true := by
        rintro rfl
        exact hfail (hsurvives e hactive (by rw [hphase]; rfl))
      refine h.ends hactive h.ledger h.audit h.atMostOne (.inr ⟨?_, hp.unaudited⟩)
      rw [hp.completed, hphase]
      exact hdone
    | crashes =>
      have hdone := hsurvives e hactive
      refine h.ends hactive h.ledger h.audit h.atMostOne (.inr ⟨?_, hp.unaudited⟩)
      rw [hp.completed, hdone]
      exact Bool.false_ne_true

/-- Whoever is told that the run is done finds it finished. -/
theorem acknowledgesFinished_of_recoverable {c : ExecutionCall T F} (hrepeats : Repeats q s c)
    (h : Recoverable q s) : AcknowledgesFinished q s c := by
  unfold AcknowledgesFinished
  have heffect := executions_effect q s c
  revert heffect
  generalize (executions T q).next s c = s'
  generalize (executions T q).answer s c = answer
  intro heffect
  cases heffect with
  | busy i options now hbusy => trivial
  | absent i step hidle => trivial
  | claims i options now hidle hclaim => trivial
  | refused i options now hidle hclaim =>
    obtain ⟨hnone, -, hlease⟩ := hrepeats
    obtain ⟨r, hr, hstatus⟩ := claimPipelineRun_false hclaim
    have hcompleted : Completed s.stores.runs q.inputHash := by
      rcases hstatus with hstatus | ⟨hrunning, hlive⟩
      · exact ⟨r, hr, hstatus⟩
      · exact absurd (hlease r hr hrunning) (not_le.mpr hlive)
    rcases h.idle hnone with hfinished | ⟨hopen, -⟩
    · exact hfinished
    · exact absurd hcompleted hopen
  | works i step e stores e' answer hactive heffect =>
    have hp := h.active i e hactive
    cases heffect with
    | returns record hash now hphase hhash haudited =>
      rw [hp.audited] at haudited
      cases haudited
    | audits now assetId ticketsCreated hash audit record hphase haudit =>
      have hone := hp.recorded
      rw [hphase] at hone
      have hcount := countCompletions_append h.audit haudit
      rw [hp.unaudited] at hcount
      exact ⟨hp.completed.mpr (by rw [hphase]; rfl), hone, hcount⟩
    | _ => trivial

/-! ### Every run -/

/-- In every run of one worker in which no execution is lost between completing the run
and its audit record, the run is finished whenever the job is told that it is done. -/
theorem finished_when_acknowledged (q : Request F) {s : Executions T F}
    (hidle : ∀ i, s.active i = none) (hledger : Ended s.stores.ledger) (haudit : Ended s.stores.audit)
    (hopen : ¬ Completed s.stores.runs q.inputHash)
    (hrecorded : countRecords F q.inputHash s.stores.ledger = 0)
    (haudited : countCompletions F q.runId s.stores.audit = 0) {calls : List (ExecutionCall T F)}
    (hrepeats : (executions T q).Along (Repeats q) s calls)
    (hsurvives : (executions T q).Along Survives s calls) :
    (executions T q).Along (AcknowledgesFinished q) s calls := by
  have hinit : Recoverable q s := by
    constructor
    · intro i j hi
      rw [hidle i] at hi
      cases hi
    · exact hledger
    · exact haudit
    · omega
    · intro i e hi
      rw [hidle i] at hi
      cases hi
    · exact fun _ => .inr ⟨hopen, haudited⟩
  refine (hrepeats.and hsurvives).imp_of_invariant (I := Recoverable q) ?_ ?_ hinit
  · exact fun s c hC hs => recoverable_next hC.1 hC.2 hs
  · exact fun s c hC hs => acknowledgesFinished_of_recoverable hC.1 hs

/-- An execution that dies right after completing the run leaves it without its audit
record, and the next try is told that the run is done. -/
theorem lost_completion (q : Request F) (options : Options) (now now' : T) {i : ℕ}
    {e : Execution F} {record : Fields F} {hash : Text} (hactive : s.active i = some e)
    (hsingle : ∀ j, j ≠ i → s.active j = none) (hphase : e.phase = .evidenced record)
    (hhash : field (lit "record_hash") record = some (.str hash))
    (haudited : e.options.audited = true) (hoptions : options.audited = true)
    (hrow : ∃ r, s.stores.runs.find? q.inputHash = some r)
    (hcount : countCompletions F q.runId s.stores.audit = 0) :
    (executions T q).Along (Repeats q) s
        [.work i (.complete now), .work i .crash, .start i options now'] ∧
      ¬ (executions T q).Along (AcknowledgesFinished q) s
        [.work i (.complete now), .work i .crash, .start i options now'] := by
  obtain ⟨r, hr⟩ := hrow
  have hcomplete := next_complete (q := q) now hactive hphase hhash haudited
  generalize hs' : (executions T q).next ((executions T q).next s (.work i (.complete now)))
    (.work i .crash) = s'
  have hcrash : s' = ⟨{ s.stores with
      runs := completePipelineRun s.stores.runs q.inputHash (e.options.outputs hash) now },
        Function.update s.active i none⟩ := by
    rw [← hs', hcomplete]
    simp only [Machine.next, executions, Function.update_self, executionStep, Function.update_idem]
  have hidle : ∀ j, s'.active j = none := by
    intro j
    rw [hcrash]
    by_cases hj : j = i
    · rw [hj]
      exact Function.update_self i _ _
    · exact (Function.update_of_ne hj _ _).trans (hsingle j hj)
  have hcompleted : Completed s'.stores.runs q.inputHash := by
    rw [hcrash]
    exact (completed_completePipelineRun hr _ _ _).mpr (.inl rfl)
  have hanswer : (executions T q).step s' (.start i options now') = (s', some .duplicate) := by
    have hclaim := claim_of_completed hcompleted options.leaseSeconds now'
    have hsame := claimPipelineRun_refused hclaim
    cases hc : claimPipelineRun s'.stores.runs q.inputHash options.leaseSeconds now' with
    | mk runs granted =>
      rw [hc] at hclaim hsame
      obtain rfl : granted = false := hclaim
      obtain rfl : runs = s'.stores.runs := hsame
      simp only [executions, hidle i, Executions.start, hc]
  constructor
  · refine ⟨trivial, trivial, ?_, trivial⟩
    rw [hs']
    refine ⟨hidle, hoptions, fun r hr hrunning => ?_⟩
    obtain ⟨r', hr', hstatus⟩ := hcompleted
    obtain rfl := Option.some.inj (hr.symm.trans hr')
    rw [hstatus] at hrunning
    cases hrunning
  · rintro ⟨-, -, hlast, -⟩
    rw [hs', AcknowledgesFinished, Machine.answer, Machine.next, hanswer] at hlast
    have haudit := hlast.audited
    rw [hcrash] at haudit
    rw [hcount] at haudit
    cases haudit

/-! ### One job -/

section Example

/-- The worker dies before its append, and repeats the job when the lease has expired. -/
def repeatAfterLease : List (ExecutionCall ℤ Empty) :=
  [.start 0 runtimeOptions 0, .work 0 .find, .work 0 .crash, .start 0 runtimeOptions 900,
    .work 0 .find, .work 0 (.append [] noon)]

theorem finished_after_lease : (executions ℤ postureRequest).Along (AcknowledgesFinished postureRequest)
    emptyExecutions repeatAfterLease := by
  refine finished_when_acknowledged postureRequest (fun _ => rfl) Audit.ended_none Audit.ended_none
    ?_ rfl rfl ?_ ?_
  · rintro ⟨r, hr, -⟩
    cases hr
  · refine ⟨⟨fun _ => rfl, rfl, ?_⟩, trivial, trivial, ⟨?_, rfl, ?_⟩, trivial, trivial, trivial⟩
    · intro r hr
      cases hr
    · intro i
      cases i <;> rfl
    · intro r hr _
      cases hr
      decide
  · refine ⟨trivial, trivial, ?_, trivial, trivial, trivial, trivial⟩
    intro e he
    obtain rfl : ⟨runtimeOptions, .searched⟩ = e := Option.some.inj he
    rfl

/-- The worker dies between completing the run and its audit record. -/
theorem audit_record_lost : ¬ ∀ calls : List (ExecutionCall ℤ Empty),
    (calls.filterMap ExecutionCall.time?).Pairwise (· ≤ ·) →
      (executions ℤ postureRequest).Along (Repeats postureRequest) emptyExecutions calls →
        (executions ℤ postureRequest).Along (AcknowledgesFinished postureRequest) emptyExecutions calls := by
  intro h
  have hrun := h ([.start 0 runtimeOptions 0, .work 0 .find, .work 0 (.append [] noon)] ++
    [.work 0 (.complete 1), .work 0 .crash, .start 0 runtimeOptions 2]) (by decide)
  obtain ⟨ledger, record, happend⟩ := @exists_append_posture none ⟨_, rfl⟩
  obtain ⟨hash, hhash⟩ := postureRequest.field_record_hash happend
  generalize hs : (executions ℤ postureRequest).run emptyExecutions
    [.start 0 runtimeOptions 0, .work 0 .find] = s
  have hledger : s.stores.ledger = none := by rw [← hs]; rfl
  have hactive : s.active 0 = some ⟨runtimeOptions, .searched⟩ := by rw [← hs]; rfl
  have hothers : ∀ j, j ≠ 0 → s.active j = none := by
    intro j hj
    rw [← hs]
    cases j with
    | zero => exact absurd rfl hj
    | succ j => rfl
  have hrow : ∃ r, s.stores.runs.find? postureRequest.inputHash = some r := by
    rw [← hs]
    exact ⟨_, rfl⟩
  have haudit : countCompletions Empty postureRequest.runId s.stores.audit = 0 := by
    rw [← hs]
    rfl
  have hstep := next_append (q := postureRequest) hactive rfl (hledger ▸ happend)
  have hprefix : (executions ℤ postureRequest).run emptyExecutions
      [.start 0 runtimeOptions 0, .work 0 .find, .work 0 (.append [] noon)] =
        ⟨{ s.stores with ledger }, Function.update s.active 0
          (some ⟨runtimeOptions, .evidenced record⟩)⟩ := by
    rw [← hstep, ← hs]
    rfl
  obtain ⟨hrepeats, hlost⟩ := lost_completion (s := ⟨{ s.stores with ledger },
      Function.update s.active 0 (some ⟨runtimeOptions, .evidenced record⟩)⟩) postureRequest
    runtimeOptions 1 2 (Function.update_self 0 _ _)
    (fun j hj => (Function.update_of_ne hj _ _).trans (hothers j hj)) rfl hhash rfl rfl hrow haudit
  rw [Machine.along_append, Machine.along_append, hprefix] at hrun
  refine hlost (hrun ⟨?_, hrepeats⟩).2
  refine ⟨⟨fun _ => rfl, rfl, ?_⟩, trivial, trivial, trivial⟩
  intro r hr
  cases hr

end Example

end SentinelGRC.Pipeline
