import SentinelGRC.Pipeline.Execution

/-!
Who may still write the row of a run. Completing a run and marking it failed are
updates keyed by the input hash alone: they ask neither whether the run was completed
before nor whether another execution has taken it over. A completed run stays
completed, and an execution that was overtaken leaves the row alone, exactly in the
runs in which nobody fails a run after completing it and overtaken executions write
nothing new.
-/

namespace SentinelGRC.Pipeline

open Python Json Store Transition

variable {T F : Type} [Clock T] [PyFloat F]

/-! ### Executions that were overtaken -/

/-- The leases of the executions, and which of them expired before another execution
claimed the run. -/
structure Fence (T : Type) where
  leases : ℕ → T
  overtaken : ℕ → Bool

/-- A claim overtakes the executions whose leases have expired by then. -/
def markOvertaken (q : Request F) (fence : Fence T) (s : Executions T F) (c : ExecutionCall T F)
    (_ : Option Answer) : Fence T :=
  match c with
  | .start i options now =>
    if (s.active i).isNone &&
        (claimPipelineRun s.stores.runs q.inputHash options.leaseSeconds now).2 then
      { leases := Function.update fence.leases i (Clock.after now options.leaseSeconds)
        overtaken := Function.update
          (fun j => fence.overtaken j || ((s.active j).isSome && fence.leases j ≤ now)) i false }
    else fence
  | .work _ _ => fence

/-- The executions with a record of who was overtaken. -/
abbrev fencedExecutions (T : Type) {F : Type} [Clock T] [PyFloat F] (q : Request F) :
    Machine (Executions T F × Fence T) (ExecutionCall T F) (Option Answer) :=
  (executions T q).withHistory (markOvertaken q)

/-- The run, when completed, stays so and cannot be claimed, and a step of an overtaken
execution leaves its row unchanged. -/
structure Fenced (q : Request F) (s : Executions T F × Fence T) (c : ExecutionCall T F) : Prop where
  terminal : Completed s.1.stores.runs q.inputHash →
    Completed ((executions T q).next s.1 c).stores.runs q.inputHash ∧
      ∀ lease now, (claimPipelineRun s.1.stores.runs q.inputHash lease now).2 = false
  unchanged : ∀ i step, c = .work i step → s.2.overtaken i = true →
    ((executions T q).next s.1 c).stores.runs.find? q.inputHash =
      s.1.stores.runs.find? q.inputHash

/-- Nobody fails a run after completing it, and an overtaken execution writes only what the
row already holds. -/
structure Careful (q : Request F) (s : Executions T F × Fence T) (c : ExecutionCall T F) : Prop where
  completes : ∀ i e now record hash, c = .work i (.complete now) → s.1.active i = some e →
    e.phase = .evidenced record → field (lit "record_hash") record = some (.str hash) →
    s.2.overtaken i = true → ∀ r, s.1.stores.runs.find? q.inputHash = some r →
      r = r.completion (e.options.outputs hash) now
  fails : ∀ i e error now done, c = .work i (.fail error now) → s.1.active i = some e →
    e.phase = .failing done → Scalar (error.take 2000) →
    (s.2.overtaken i = true → ∀ r, s.1.stores.runs.find? q.inputHash = some r → r = r.failure error now) ∧
      (s.2.overtaken i = false → done = false)

/-- At most one execution holds the run; the row carries its lease until it completes the run. -/
structure Held (q : Request F) (s : Executions T F × Fence T) : Prop where
  unique : ∀ i j, (s.1.active i).isSome = true → (s.1.active j).isSome = true →
    s.2.overtaken i = false → s.2.overtaken j = false → i = j
  row : ∀ i e, s.1.active i = some e → s.2.overtaken i = false →
    ∃ r, s.1.stores.runs.find? q.inputHash = some r ∧
      if e.phase.done then r.status = .completed
      else r.status = .running ∧ r.runLeaseUntil = s.2.leases i

variable {q : Request F} {s : Executions T F} {fence : Fence T}

omit [Clock T] in
/-- A step that leaves the row as it is keeps who holds the run. -/
theorem Held.keeps (h : Held q (s, fence)) {i : ℕ} {e : Execution F} {e' : Option (Execution F)}
    {stores : Stores T} (hactive : s.active i = some e)
    (hrow : stores.runs.find? q.inputHash = s.stores.runs.find? q.inputHash)
    (hdone : ∀ e₁, e' = some e₁ → fence.overtaken i = false → e₁.phase.done = e.phase.done) :
    Held q (⟨stores, Function.update s.active i e'⟩, fence) where
  unique j k hj hk := h.unique j k (isSome_of_update hactive hj) (isSome_of_update hactive hk)
  row j e₁ hj hfree := by
    change ∃ r, stores.runs.find? q.inputHash = some r ∧ _
    rw [hrow]
    simp only [Function.update_apply] at hj
    split_ifs at hj with hij
    · subst hij
      rw [hdone e₁ hj hfree]
      exact h.row j e hactive hfree
    · exact h.row j e₁ hj hfree

omit [Clock T] in
/-- Whoever holds the run may write its row. -/
theorem Held.writes (h : Held q (s, fence)) {i : ℕ} {e : Execution F} {e' : Option (Execution F)}
    {stores : Stores T} (hactive : s.active i = some e) (hfree : fence.overtaken i = false)
    (hrow : ∀ e₁, e' = some e₁ → ∃ r, stores.runs.find? q.inputHash = some r ∧
      if e₁.phase.done then r.status = .completed
      else r.status = .running ∧ r.runLeaseUntil = fence.leases i) :
    Held q (⟨stores, Function.update s.active i e'⟩, fence) where
  unique j k hj hk := h.unique j k (isSome_of_update hactive hj) (isSome_of_update hactive hk)
  row j e₁ hj hj' := by
    have hsome : (Function.update s.active i e' j).isSome = true := by
      rw [show Function.update s.active i e' j = some e₁ from hj]
      rfl
    obtain rfl : j = i := by
      refine h.unique j i (isSome_of_update hactive hsome) ?_ hj' hfree
      change (s.active i).isSome = true
      rw [hactive]
      rfl
    simp only [Function.update_self] at hj
    exact hrow e₁ hj

/-- A claim leaves nobody else with the run. -/
theorem Held.claims (h : Held q (s, fence)) {i : ℕ} {options : Options} {now : T}
    (hidle : s.active i = none)
    (hclaim : (claimPipelineRun s.stores.runs q.inputHash options.leaseSeconds now).2 = true)
    (answer : Option Answer) :
    Held q (⟨{ s.stores with
        runs := (claimPipelineRun s.stores.runs q.inputHash options.leaseSeconds now).1 },
      Function.update s.active i (some ⟨options, .claimed⟩)⟩,
      markOvertaken q fence s (.start i options now) answer) := by
  have hmark : markOvertaken q fence s (.start i options now) answer =
      { leases := Function.update fence.leases i (Clock.after now options.leaseSeconds)
        overtaken := Function.update
          (fun j => fence.overtaken j || ((s.active j).isSome && fence.leases j ≤ now)) i false } := by
    simp only [markOvertaken, hidle, Option.isNone_none, Bool.true_and, hclaim, ↓reduceIte]
  -- the run was claimable, so a holder's lease had expired
  have hnone : ∀ j e, s.active j = some e → fence.overtaken j = false → fence.leases j ≤ now := by
    intro j e hj hfree
    obtain ⟨r, hr, hrow⟩ := h.row j e hj hfree
    have hclaimable := claimable_of_claim hclaim hr
    split_ifs at hrow
    · simp [PipelineRun.claimable, hrow] at hclaimable
    · obtain ⟨hrunning, hlease⟩ := hrow
      simpa [PipelineRun.claimable, hrunning, hlease] using hclaimable
  have hself : ∀ j, (Function.update s.active i (some ⟨options, .claimed⟩) j).isSome = true →
      (markOvertaken q fence s (.start i options now) answer).overtaken j = false → j = i := by
    intro j hj hfree
    by_contra hne
    rw [Function.update_of_ne hne] at hj
    rw [hmark] at hfree
    simp only [Function.update_of_ne hne, Bool.or_eq_false_iff, hj, Bool.true_and,
      decide_eq_false_iff_not] at hfree
    obtain ⟨e, he⟩ := Option.isSome_iff_exists.mp hj
    exact hfree.2 (hnone j e he hfree.1)
  constructor
  · intro j k hj hk hj' hk'
    rw [hself j hj hj', hself k hk hk']
  · intro j e hj hfree
    obtain rfl : j = i := by
      refine hself j ?_ hfree
      rw [show Function.update s.active i (some ⟨options, .claimed⟩) j = some e from hj]
      rfl
    simp only [Function.update_self, Option.some.injEq] at hj
    subst hj
    obtain ⟨r, hr, hrunning, hlease⟩ := find?_claimPipelineRun hclaim
    refine ⟨r, hr, ?_⟩
    rw [if_neg (by simp [Phase.done]), hmark]
    exact ⟨hrunning, by simpa using hlease⟩

omit [Clock T] in
theorem map_eq_self {row : Option (PipelineRun T)} {f : PipelineRun T → PipelineRun T}
    (h : ∀ r, row = some r → r = f r) : row.map f = row := by
  cases row with
  | none => rfl
  | some r => exact congrArg some (h r rfl).symm

/-- What one step preserves. -/
theorem held_next {c : ExecutionCall T F} (hC : Careful q (s, fence) c) (h : Held q (s, fence)) :
    Held q ((fencedExecutions T q).next (s, fence) c) := by
  rw [Machine.withHistory_next]
  simp only
  have heffect := executions_effect q s c
  revert heffect
  generalize (executions T q).next s c = s'
  generalize (executions T q).answer s c = answer
  intro heffect
  cases heffect with
  | busy i options now hbusy =>
    have hmark : markOvertaken q fence s (.start i options now) none = fence := by
      have hsome : (s.active i).isNone = false := by
        rw [Option.isNone_eq_false_iff]
        exact hbusy
      simp only [markOvertaken, hsome, Bool.false_and, Bool.false_eq_true, ↓reduceIte]
    rw [hmark]
    exact h
  | absent i step hidle => exact h
  | claims i options now hidle hclaim => exact h.claims hidle hclaim none
  | refused i options now hidle hclaim =>
    have hmark : markOvertaken q fence s (.start i options now) (some .duplicate) = fence := by
      simp only [markOvertaken, hclaim, Bool.and_false, Bool.false_eq_true, ↓reduceIte]
    rw [hmark]
    exact h
  | works i step e stores e' answer hactive heffect =>
    cases heffect with
    | completes record hash now hphase hhash haudited =>
      cases hfree : fence.overtaken i with
      | true =>
        refine h.keeps hactive ?_ fun _ _ hfree' => ?_
        · rw [find?_completePipelineRun]
          exact map_eq_self (hC.completes i e now record hash rfl hactive hphase hhash hfree)
        · rw [hfree] at hfree'
          cases hfree'
      | false =>
        refine h.writes hactive hfree fun e₁ he₁ => ?_
        obtain ⟨r, hr, -⟩ := h.row i e hactive hfree
        cases he₁
        refine ⟨r.completion (e.options.outputs hash) now, ?_, rfl⟩
        rw [find?_completePipelineRun, hr]
        rfl
    | returns record hash now hphase hhash haudited =>
      cases hfree : fence.overtaken i with
      | true =>
        refine h.keeps hactive ?_ fun _ he₁ => by cases he₁
        rw [find?_completePipelineRun]
        exact map_eq_self (hC.completes i e now record hash rfl hactive hphase hhash hfree)
      | false => exact h.writes hactive hfree fun _ he₁ => by cases he₁
    | fails error now completed runs hphase hfail =>
      cases hfree : fence.overtaken i with
      | true =>
        refine h.keeps hactive ?_ fun _ he₁ => by cases he₁
        rw [find?_failPipelineRun hfail]
        exact map_eq_self ((hC.fails i e error now completed rfl hactive hphase
          (scalar_of_failPipelineRun hfail)).1 hfree)
      | false => exact h.writes hactive hfree fun _ he₁ => by cases he₁
    | stays => exact h.keeps hactive rfl fun _ he₁ _ => by cases he₁; rfl
    | misses hphase hfind => exact h.keeps hactive rfl fun _ he₁ _ => by cases he₁; rw [hphase]; rfl
    | finds record hphase hfind =>
      exact h.keeps hactive rfl fun _ he₁ _ => by cases he₁; rw [hphase]; rfl
    | appends results recordedAt ledger record hphase happend =>
      exact h.keeps hactive rfl fun _ he₁ _ => by cases he₁; rw [hphase]; rfl
    | audits now assetId ticketsCreated hash audit record hphase haudit =>
      exact h.keeps hactive rfl fun _ he₁ => by cases he₁
    | raises hdone => exact h.keeps hactive rfl fun _ he₁ _ => by cases he₁; exact hdone.symm
    | drops error now completed hphase hfail => exact h.keeps hactive rfl fun _ he₁ => by cases he₁
    | crashes => exact h.keeps hactive rfl fun _ he₁ => by cases he₁

/-- The row that a step leaves when it does not write the runs. -/
theorem Fenced.of_runs {c : ExecutionCall T F}
    (hruns : ((executions T q).next s c).stores.runs.find? q.inputHash =
      s.stores.runs.find? q.inputHash) : Fenced q (s, fence) c where
  terminal hcompleted := by
    refine ⟨?_, claim_of_completed hcompleted⟩
    obtain ⟨r, hr, hstatus⟩ := hcompleted
    exact ⟨r, hruns.trans hr, hstatus⟩
  unchanged _ _ _ _ := hruns

theorem runs_complete {i : ℕ} {e : Execution F} {now : T} {record : Fields F} {hash : Text}
    (hactive : s.active i = some e) (hphase : e.phase = .evidenced record)
    (hhash : field (lit "record_hash") record = some (.str hash)) :
    ((executions T q).next s (.work i (.complete now))).stores.runs =
      completePipelineRun s.stores.runs q.inputHash (e.options.outputs hash) now := by
  simp only [Machine.next, executions, hactive, executionStep, hphase, hhash]
  split_ifs <;> rfl

theorem runs_fail {i : ℕ} {e : Execution F} {error : Text} (now : T) {done : Bool}
    (hactive : s.active i = some e) (hphase : e.phase = .failing done)
    (hscalar : Scalar (error.take 2000)) :
    failPipelineRun s.stores.runs q.inputHash error now =
      .ok ((executions T q).next s (.work i (.fail error now))).stores.runs := by
  have hok : ∃ runs, failPipelineRun s.stores.runs q.inputHash error now = .ok runs := by
    rw [failPipelineRun, if_neg (not_not.mpr hscalar)]
    split
    · exact ⟨_, rfl⟩
    · exact ⟨_, rfl⟩
  obtain ⟨runs, hruns⟩ := hok
  simp only [Machine.next, executions, hactive, executionStep, hphase, hruns]

theorem careful_of_fenced (h : Held q (s, fence)) {c : ExecutionCall T F}
    (hF : Fenced q (s, fence) c) : Careful q (s, fence) c where
  completes i e now record hash hc hactive hphase hhash hover r hr := by
    subst hc
    have hsame := hF.unchanged i _ rfl hover
    rw [runs_complete hactive hphase hhash, find?_completePipelineRun, hr] at hsame
    exact (Option.some.inj hsame).symm
  fails i e error now done hc hactive hphase hscalar := by
    subst hc
    have hrow := find?_failPipelineRun (runs_fail (q := q) now hactive hphase hscalar)
    constructor
    · intro hover r hr
      have hsame := hF.unchanged i _ rfl hover
      rw [hrow, hr] at hsame
      exact (Option.some.inj hsame).symm
    · intro hfree
      obtain ⟨r, hr, hdone⟩ := h.row i e hactive hfree
      rw [hphase] at hdone
      cases done with
      | false => rfl
      | true =>
        have hcompleted : Completed s.stores.runs q.inputHash := ⟨r, hr, hdone⟩
        have hafter := (hF.terminal hcompleted).1
        rw [show s.stores.runs.find? q.inputHash = some r from hr] at hrow
        exact absurd hafter (not_completed hrow (by simp [PipelineRun.failure]))

theorem fenced_of_careful (h : Held q (s, fence)) {c : ExecutionCall T F}
    (hC : Careful q (s, fence) c) : Fenced q (s, fence) c := by
  have heffect := executions_effect q s c
  generalize hnext : (executions T q).next s c = s' at heffect
  generalize (executions T q).answer s c = answer at heffect
  cases heffect with
  | busy i options now hbusy => exact .of_runs (by rw [hnext])
  | absent i step hidle => exact .of_runs (by rw [hnext])
  | refused i options now hidle hclaim => exact .of_runs (by rw [hnext])
  | claims i options now hidle hclaim =>
    constructor
    · intro hcompleted
      rw [claim_of_completed hcompleted] at hclaim
      cases hclaim
    · intro j step hc
      cases hc
  | works i step e stores e' answer hactive heffect =>
    cases heffect with
    | completes record hash now hphase hhash haudited =>
      constructor
      · intro hcompleted
        obtain ⟨r, hr, -⟩ := id hcompleted
        refine ⟨?_, claim_of_completed hcompleted⟩
        rw [hnext]
        exact (completed_completePipelineRun hr _ _ _).mpr (.inl rfl)
      · rintro j step ⟨⟩ hover
        rw [hnext]
        change (completePipelineRun _ _ _ _).find? _ = _
        rw [find?_completePipelineRun]
        exact map_eq_self (hC.completes i e now record hash rfl hactive hphase hhash hover)
    | returns record hash now hphase hhash haudited =>
      constructor
      · intro hcompleted
        obtain ⟨r, hr, -⟩ := id hcompleted
        refine ⟨?_, claim_of_completed hcompleted⟩
        rw [hnext]
        exact (completed_completePipelineRun hr _ _ _).mpr (.inl rfl)
      · rintro j step ⟨⟩ hover
        rw [hnext]
        change (completePipelineRun _ _ _ _).find? _ = _
        rw [find?_completePipelineRun]
        exact map_eq_self (hC.completes i e now record hash rfl hactive hphase hhash hover)
    | fails error now done runs hphase hfail =>
      obtain ⟨hsame, hfirst⟩ := hC.fails i e error now done rfl hactive hphase
        (scalar_of_failPipelineRun hfail)
      have hrow (hover : fence.overtaken i = true) :
          runs.find? q.inputHash = s.stores.runs.find? q.inputHash := by
        rw [find?_failPipelineRun hfail]
        exact map_eq_self (hsame hover)
      constructor
      · rintro ⟨r, hr, hstatus⟩
        cases hover : fence.overtaken i with
        | true =>
          refine ⟨⟨r, ?_, hstatus⟩, claim_of_completed ⟨r, hr, hstatus⟩⟩
          rw [hnext]
          exact (hrow hover).trans hr
        | false =>
          obtain ⟨p, hp, hrunning⟩ := h.row i e hactive hover
          obtain rfl := Option.some.inj (hr.symm.trans hp)
          rw [hphase, hfirst hover] at hrunning
          have hrunning := hrunning.1
          rw [hstatus] at hrunning
          cases hrunning
      · rintro j step ⟨⟩ hover
        rw [hnext]
        exact hrow hover
    | stays => exact .of_runs (by rw [hnext])
    | misses hphase hfind => exact .of_runs (by rw [hnext])
    | finds record hphase hfind => exact .of_runs (by rw [hnext])
    | appends results recordedAt ledger record hphase happend => exact .of_runs (by rw [hnext])
    | audits now assetId ticketsCreated hash audit record hphase haudit =>
      exact .of_runs (by rw [hnext])
    | raises hdone => exact .of_runs (by rw [hnext])
    | drops error now completed hphase hfail => exact .of_runs (by rw [hnext])
    | crashes => exact .of_runs (by rw [hnext])

/-! ### Every run -/

/-- A completed run stays completed, and overtaken executions leave its row alone, in
exactly the runs whose executions are careful. -/
theorem fenced_iff_along_careful (q : Request F) {s : Executions T F} (hidle : ∀ i, s.active i = none)
    (fence : Fence T) (calls : List (ExecutionCall T F)) :
    (fencedExecutions T q).Along (Fenced q) (s, fence) calls ↔
      (fencedExecutions T q).Along (Careful q) (s, fence) calls := by
  have hinit : Held q (s, fence) := by
    constructor
    · intro i j hi
      rw [show (s, fence).1.active i = none from hidle i] at hi
      cases hi
    · intro i e hi
      rw [show (s, fence).1.active i = none from hidle i] at hi
      cases hi
  exact Machine.along_congr_of_invariant (fun _ _ hC hs => held_next hC hs)
    (fun _ _ hs => ⟨careful_of_fenced hs, fenced_of_careful hs⟩) hinit calls

/-- An execution that raises after it has completed the run takes the completion back. -/
theorem late_failure (error : Text) (now now' : T) {i : ℕ} {e : Execution F} {record : Fields F}
    {hash : Text} (hactive : s.active i = some e) (hphase : e.phase = .evidenced record)
    (hhash : field (lit "record_hash") record = some (.str hash))
    (haudited : e.options.audited = true)
    (hrow : ∃ r, s.stores.runs.find? q.inputHash = some r) (hscalar : Scalar (error.take 2000)) :
    Completed ((executions T q).run s [.work i (.complete now), .work i .raise]).stores.runs
        q.inputHash ∧
      ¬ Completed ((executions T q).run s [.work i (.complete now), .work i .raise,
        .work i (.fail error now')]).stores.runs q.inputHash := by
  obtain ⟨r, hr⟩ := hrow
  have hcomplete := next_complete (q := q) now hactive hphase hhash haudited
  generalize hs' : (executions T q).run s [.work i (.complete now), .work i .raise] = s'
  have hraise : s' = ⟨{ s.stores with
      runs := completePipelineRun s.stores.runs q.inputHash (e.options.outputs hash) now },
        Function.update s.active i (some { e with phase := .failing true })⟩ := by
    rw [← hs', Machine.run_cons, Machine.run_cons, Machine.run_nil, hcomplete]
    simp only [Machine.next, executions, Function.update_self, executionStep, Function.update_idem]
  have hactive' : s'.active i = some { e with phase := .failing true } := by
    rw [hraise]
    exact Function.update_self i _ _
  constructor
  · rw [hraise]
    exact (completed_completePipelineRun hr _ _ _).mpr (.inl rfl)
  · have hfail := find?_failPipelineRun (runs_fail (q := q) now' hactive' rfl hscalar)
    have hrun : (executions T q).run s [.work i (.complete now), .work i .raise,
        .work i (.fail error now')] = (executions T q).next s' (.work i (.fail error now')) := by
      rw [← hs', ← Machine.run_concat]
      rfl
    have hrow : s'.stores.runs.find? q.inputHash = some (r.completion (e.options.outputs hash) now) := by
      rw [hraise]
      change (completePipelineRun _ _ _ _).find? _ = _
      rw [find?_completePipelineRun, hr]
      rfl
    rw [hrun]
    rw [hrow] at hfail
    exact not_completed hfail (by simp [PipelineRun.failure])

/-! ### Executions of one posture -/

section Example

def noFence : Fence ℤ := ⟨fun _ => 0, fun _ => false⟩

/-- Only completing and failing need care. -/
theorem careful_of_other {c : ExecutionCall T F}
    (hcomplete : ∀ i now, c ≠ .work i (.complete now))
    (hfail : ∀ i error now, c ≠ .work i (.fail error now)) : Careful q (s, fence) c where
  completes i _ now _ _ hc := absurd hc (hcomplete i now)
  fails i _ error now _ hc := absurd hc (hfail i error now)

/-- The first execution is overtaken and interrupted, the second fails the run. -/
def takenOver : List (ExecutionCall ℤ Empty) :=
  [.start 0 runtimeOptions 0, .start 1 runtimeOptions 900, .work 0 .crash, .work 1 .raise,
    .work 1 (.fail (lit "disk full") 901), .start 0 runtimeOptions 902]

theorem fenced_taken_over : (fencedExecutions ℤ postureRequest).Along (Fenced postureRequest)
    (emptyExecutions, noFence) takenOver := by
  refine (fenced_iff_along_careful postureRequest (fun _ => rfl) noFence takenOver).mpr ?_
  refine ⟨careful_of_other (by simp) (by simp), careful_of_other (by simp) (by simp),
    careful_of_other (by simp) (by simp), careful_of_other (by simp) (by simp), ⟨?_, ?_⟩,
    careful_of_other (by simp) (by simp), trivial⟩
  · intro i e now record hash hc
    cases hc
  · intro i e error now done hc hactive hphase _
    cases hc
    obtain rfl : ⟨runtimeOptions, .failing false⟩ = e := Option.some.inj hactive
    cases hphase
    exact ⟨fun hover => (by cases hover), fun _ => rfl⟩

/-- An execution completes the run and then fails it, because its audit record is refused;
and an execution that was overtaken fails the run under the hands of the other. -/
theorem completion_not_terminal :
    (¬ ∀ calls : List (ExecutionCall ℤ Empty), (calls.filterMap ExecutionCall.time?).Pairwise (· ≤ ·) →
      (executions ℤ postureRequest).Along (fun s c => Completed s.stores.runs postureRequest.inputHash →
        Completed ((executions ℤ postureRequest).next s c).stores.runs postureRequest.inputHash)
        emptyExecutions calls) ∧
    ¬ ∀ calls : List (ExecutionCall ℤ Empty), (calls.filterMap ExecutionCall.time?).Pairwise (· ≤ ·) →
      (fencedExecutions ℤ postureRequest).Along (Fenced postureRequest) (emptyExecutions, noFence)
        calls := by
  constructor
  · intro h
    have hrun := h ([.start 0 runtimeOptions 0, .work 0 .find, .work 0 (.append [] noon)] ++
      ([.work 0 (.complete 1), .work 0 .raise] ++ [.work 0 (.fail (lit "audit log is locked") 2)]))
      (by decide)
    obtain ⟨ledger, record, happend⟩ := @exists_append_posture none ⟨_, rfl⟩
    obtain ⟨hash, hhash⟩ := postureRequest.field_record_hash happend
    generalize hs : (executions ℤ postureRequest).run emptyExecutions
      [.start 0 runtimeOptions 0, .work 0 .find] = s
    have hledger : s.stores.ledger = none := by rw [← hs]; rfl
    have hactive : s.active 0 = some ⟨runtimeOptions, .searched⟩ := by rw [← hs]; rfl
    have hrow : ∃ r, s.stores.runs.find? postureRequest.inputHash = some r := by
      rw [← hs]
      exact ⟨_, rfl⟩
    have hstep := next_append (q := postureRequest) hactive rfl (hledger ▸ happend)
    have hprefix : (executions ℤ postureRequest).run emptyExecutions
        [.start 0 runtimeOptions 0, .work 0 .find, .work 0 (.append [] noon)] =
          ⟨{ s.stores with ledger }, Function.update s.active 0
            (some ⟨runtimeOptions, .evidenced record⟩)⟩ := by
      rw [← hstep, ← hs]
      rfl
    rw [Machine.along_append, Machine.along_append, hprefix] at hrun
    have hlocked : Scalar ((lit "audit log is locked").take 2000) := by decide
    have hself : Function.update s.active 0 (some ⟨runtimeOptions, .evidenced record⟩) 0 =
        some ⟨runtimeOptions, .evidenced record⟩ := Function.update_self 0 _ _
    obtain ⟨hcompleted, hfailed⟩ := late_failure (q := postureRequest)
      (s := ⟨{ s.stores with ledger }, Function.update s.active 0
        (some ⟨runtimeOptions, .evidenced record⟩)⟩) (i := 0) (e := ⟨runtimeOptions, .evidenced record⟩)
      (lit "audit log is locked") 1 2 hself rfl hhash rfl hrow hlocked
    exact hfailed (hrun.2.2.1 hcompleted)
  · intro h
    have hrun := h [.start 0 runtimeOptions 0, .work 0 .raise, .start 1 runtimeOptions 900,
      .work 0 (.fail (lit "disk full") 901)] (by decide)
    have hsame := hrun.2.2.2.1.unchanged 0 _ rfl rfl
    have hstatus := congrArg (Option.map PipelineRun.status) hsame
    exact absurd hstatus (by decide)

end Example

end SentinelGRC.Pipeline
