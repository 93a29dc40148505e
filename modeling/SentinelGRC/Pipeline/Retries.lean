import SentinelGRC.Jobs.Retries
import SentinelGRC.Pipeline.Acknowledgement

/-!
How often the workers execute a job. They reach the queue by its calls alone, each step
making one call at most, and fail a job with their retry limit or with a limit of one.
-/

namespace SentinelGRC.Pipeline

open Python Store Jobs Transition

variable {T F : Type} [Clock T] [PyFloat F]

/-! ### The calls on the queue -/

/-- The call that a step makes on the queue. -/
def Task.queueCall (t : Task T) : TaskStep T → Option (QueueOp T)
  | .renew now =>
    match t.stage with
    | .claimed => some (.renew t.job.jobId t.process.workerId t.process.leaseSeconds now)
    | _ => none
  | .beat now =>
    if t.beating then some (.renew t.job.jobId t.process.workerId t.process.leaseSeconds now)
    else none
  | .acknowledge now =>
    match t.stage with
    | .acknowledging _ => some (.complete t.job.jobId t.process.workerId now)
    | _ => none
  | .failJob now =>
    match t.stage with
    | .raising error maxAttempts retryDelay =>
      some (.fail t.job.jobId t.process.workerId error maxAttempts retryDelay now)
    | _ => none
  | _ => none

def System.queueCall (s : System T) : Action T → Option (QueueOp T)
  | .enqueue path now => some (.enqueue path now)
  | .claim i process now =>
    match s.workers i with
    | some _ => none
    | none => some (.claim process.workerId process.leaseSeconds now)
  | .work i step => (s.workers i).bind fun t => t.queueCall step

/-- The queue after a call, if there is one. -/
def queueAfter (q : Queue T) : Option (QueueOp T) → Queue T
  | some op => (jobQueue T).next q op
  | none => q

theorem taskStep_queue (inputs : Inputs F) (queue : Queue T) (runs : PipelineRuns T) (t : Task T)
    (step : TaskStep T) :
    (taskStep inputs queue runs t step).1 = queueAfter queue (t.queueCall step) := by
  obtain ⟨process, job, stage, beating, lost⟩ := t
  cases step with
  | renew now =>
    cases stage with
    | claimed =>
      unfold taskStep
      simp only
      split
      · rename_i queue' hr
        exact (congrArg Prod.fst hr).symm
      · rename_i queue' r _ hr
        exact (congrArg Prod.fst hr).symm
    | _ => rfl
  | beat now =>
    cases beating with
    | true =>
      unfold taskStep beat
      simp only [↓reduceIte]
      split
      · rename_i queue' hr
        exact (congrArg Prod.fst hr).symm
      · rename_i queue' r _ hr
        exact (congrArg Prod.fst hr).symm
    | false => rfl
  | storageError => cases stage <;> rfl
  | beatError => cases beating <;> rfl
  | read outcome => cases stage <;> cases outcome <;> rfl
  | start now =>
    unfold taskStep
    simp only
    split <;> rfl
  | record outputs now => cases stage <;> rfl
  | raise error => cases stage <;> rfl
  | audited => cases stage <;> rfl
  | failRun codecError now =>
    cases stage with
    | failing inputHash error =>
      unfold taskStep
      simp only
      split <;> rfl
    | _ => rfl
  | join => cases stage <;> rfl
  | acknowledge now => cases stage <;> rfl
  | failJob now => cases stage <;> rfl
  | crash => rfl

/-- A step changes the queue by its call alone. -/
theorem step_queue (inputs : Inputs F) (s : System T) (a : Action T) :
    (s.step inputs a).queue = queueAfter s.queue (s.queueCall a) := by
  cases a with
  | enqueue path now => rfl
  | claim i process now =>
    cases hi : s.workers i with
    | some t => simp only [System.step, System.queueCall, hi, queueAfter]
    | none =>
      simp only [System.step, System.queueCall, hi, queueAfter]
      unfold claimJob
      split
      · rename_i queue' job hr
        exact (congrArg Prod.fst hr).symm
      · rename_i queue' r _ hr
        exact (congrArg Prod.fst hr).symm
  | work i step =>
    cases hi : s.workers i with
    | none => simp only [System.step, System.queueCall, hi, Option.bind_none, queueAfter]
    | some t =>
      simp only [System.step, System.queueCall, hi, Option.bind_some]
      exact taskStep_queue inputs s.queue s.runs t step

/-! ### The retry limit -/

/-- The settings of the process, and what it fails its job with next. -/
structure Limited (maxAttempts : ℕ) (t : Task T) : Prop where
  process : t.process.maxAttempts = maxAttempts
  raising : ∀ error attempts delay, t.stage = .raising error attempts delay → attempts ≤ maxAttempts

/-- The workers' claims are made with one retry limit. -/
def FixedLimit (maxAttempts : ℕ) : Action T → Prop
  | .claim _ process _ => process.maxAttempts = maxAttempts
  | _ => True

section Limited

variable {maxAttempts : ℕ} {t : Task T}

omit [Clock T] in
theorem Limited.raised (h : Limited maxAttempts t) (error : Text) :
    Limited maxAttempts (t.raised error) where
  process := h.process
  raising error' attempts delay hstage := by
    obtain ⟨-, rfl, -⟩ := Stage.raising.inj hstage
    exact h.process.le

/-- What a step leaves of a task is within the limit. -/
def LimitedTask (maxAttempts : ℕ) (o : Option (Task T)) : Prop := ∀ t, o = some t → Limited maxAttempts t

omit [Clock T] in
theorem limitedTask_none : LimitedTask maxAttempts (none : Option (Task T)) := by
  intro t ht
  cases ht

omit [Clock T] in
theorem Limited.task (h : Limited maxAttempts t) : LimitedTask maxAttempts (some t) := by
  intro t' ht
  obtain rfl := Option.some.inj ht
  exact h

omit [Clock T] in
/-- A stage that does not fail the job next. -/
theorem Limited.moved (h : Limited maxAttempts t) {t' : Task T} (hprocess : t'.process = t.process)
    (hstage : ∀ error attempts delay, t'.stage ≠ .raising error attempts delay) :
    LimitedTask maxAttempts (some t') := by
  refine Limited.task ⟨by rw [hprocess, h.process], ?_⟩
  exact fun error attempts delay he => absurd he (hstage error attempts delay)

/-- Evidence that is refused fails its job with a limit of one, all else with that of the process. -/
theorem limited_taskStep (hlimit : 1 ≤ maxAttempts) (inputs : Inputs F) (queue : Queue T)
    (runs : PipelineRuns T) (h : Limited maxAttempts t) (step : TaskStep T) :
    LimitedTask maxAttempts (taskStep inputs queue runs t step).2.2 := by
  obtain ⟨process, job, stage, beating, lost⟩ := t
  cases step with
  | renew now =>
    cases stage with
    | claimed =>
      unfold taskStep
      simp only
      split
      · exact h.moved rfl (by simp)
      · exact limitedTask_none
    | _ => exact h.task
  | storageError =>
    cases stage with
    | claimed => exact limitedTask_none
    | _ => exact h.task
  | beat now =>
    cases beating with
    | false => exact h.task
    | true =>
      unfold taskStep beat
      simp only [↓reduceIte]
      split
      · exact h.task
      · exact Limited.task ⟨h.process, h.raising⟩
  | beatError =>
    cases beating with
    | false => exact h.task
    | true => exact Limited.task ⟨h.process, h.raising⟩
  | read outcome =>
    cases stage with
    | supervised =>
      cases outcome with
      | bytes =>
        cases lost with
        | false => exact h.moved rfl (by simp)
        | true => exact limitedTask_none
      | osError => exact (h.raised _).task
      | invalid error =>
        refine Limited.task ⟨h.process, ?_⟩
        intro error' attempts delay hstage
        obtain ⟨-, rfl, -⟩ := Stage.raising.inj hstage
        exact_mod_cast hlimit
    | _ => exact h.task
  | start now =>
    cases stage with
    | loaded =>
      unfold taskStep startRun
      cases inputs.runHash job.payloadPath with
      | error e => exact h.task
      | ok inputHash =>
        simp only
        split
        · exact h.moved rfl (by simp)
        · exact h.moved rfl (by simp)
    | _ => exact h.task
  | record outputs now =>
    cases stage with
    | executing inputHash => exact h.moved rfl (by simp)
    | _ => exact h.task
  | raise error =>
    cases stage with
    | executing inputHash => exact h.moved rfl (by simp)
    | recorded inputHash => exact h.moved rfl (by simp)
    | loaded => exact (h.raised _).task
    | answered inputHash => exact (h.raised _).task
    | acknowledging inputHash => exact (h.raised _).task
    | _ => exact h.task
  | audited =>
    cases stage with
    | recorded inputHash => exact h.moved rfl (by simp)
    | _ => exact h.task
  | failRun codecError now =>
    cases stage with
    | failing inputHash error =>
      unfold taskStep
      simp only
      split
      · exact (h.raised _).task
      · exact (h.raised _).task
    | _ => exact h.task
  | join =>
    cases stage with
    | answered inputHash =>
      cases lost with
      | false => exact h.moved rfl (by simp)
      | true => exact limitedTask_none
    | _ => exact h.task
  | acknowledge now =>
    cases stage with
    | acknowledging inputHash => exact limitedTask_none
    | _ => exact h.task
  | failJob now =>
    cases stage with
    | raising error attempts delay => exact limitedTask_none
    | _ => exact h.task
  | crash => exact limitedTask_none

omit [Clock T] in
/-- A worker fails its job within its limit. -/
theorem limits_queueCall (h : Limited maxAttempts t) {step : TaskStep T} {op : QueueOp T}
    (hop : t.queueCall step = some op) : Limits maxAttempts op := by
  unfold Task.queueCall at hop
  split at hop
  · split at hop
    · obtain rfl := Option.some.inj hop
      trivial
    · cases hop
  · split_ifs at hop
    obtain rfl := Option.some.inj hop
    trivial
  · split at hop
    · obtain rfl := Option.some.inj hop
      trivial
    · cases hop
  · split at hop
    · rename_i error attempts delay hstage
      obtain rfl := Option.some.inj hop
      exact h.raising error attempts delay hstage
    · cases hop
  · cases hop

end Limited

/-! ### Every run -/

/-- The claims of a run, told from the answers of the queue. -/
def recordClaims (h : ClaimCounts) (s : System T) (a : Action T) (_ : Unit) : ClaimCounts :=
  match s.queueCall a with
  | some op => h.record ((jobQueue T).answer s.queue op)
  | none => h

/-- What holds between the steps of the workers. -/
structure Retried (maxAttempts : ℕ) (s : System T × ClaimCounts) : Prop where
  counted : Counted maxAttempts s.1.queue s.2
  limited : ∀ i t, s.1.workers i = some t → Limited maxAttempts t

variable {maxAttempts : ℕ}

omit [Clock T] in
theorem limited_update {workers : ℕ → Option (Task T)} {i : ℕ} {o : Option (Task T)}
    (h : ∀ j t, workers j = some t → Limited maxAttempts t)
    (ho : LimitedTask maxAttempts o) :
    ∀ j t, Function.update workers i o j = some t → Limited maxAttempts t := by
  intro j t hj
  rw [Function.update_apply] at hj
  split_ifs at hj
  · exact ho t hj
  · exact h j t hj

omit [Clock T] in
theorem limits_systemCall {s : System T} (h : ∀ i t, s.workers i = some t → Limited maxAttempts t)
    {a : Action T} {op : QueueOp T} (hop : s.queueCall a = some op) : Limits maxAttempts op := by
  cases a with
  | enqueue path now =>
    obtain rfl := Option.some.inj hop
    trivial
  | claim i process now =>
    cases hi : s.workers i with
    | some t =>
      simp only [System.queueCall, hi] at hop
      cases hop
    | none =>
      simp only [System.queueCall, hi] at hop
      obtain rfl := Option.some.inj hop
      trivial
  | work i step =>
    obtain ⟨t, ht, hop⟩ := Option.bind_eq_some_iff.mp hop
    exact limits_queueCall (h i t ht) hop

/-- The workers' tasks stay within the limit. -/
theorem limited_step (hlimit : 1 ≤ maxAttempts) (inputs : Inputs F) {s : System T} {a : Action T}
    (ha : FixedLimit maxAttempts a) (h : ∀ i t, s.workers i = some t → Limited maxAttempts t) :
    ∀ i t, (s.step inputs a).workers i = some t → Limited maxAttempts t := by
  cases a with
  | enqueue path now => exact h
  | claim i process now =>
    cases hi : s.workers i with
    | some t => simpa only [System.step, hi] using h
    | none =>
      simp only [System.step, hi]
      unfold claimJob
      split
      · rename_i queue' job hr
        refine limited_update h (Limited.task ⟨ha, ?_⟩)
        intro error attempts delay hstage
        cases hstage
      · exact h
  | work i step =>
    cases hi : s.workers i with
    | none => simpa only [System.step, hi] using h
    | some t =>
      simp only [System.step, hi]
      exact limited_update h (limited_taskStep hlimit inputs s.queue s.runs (h i t hi) step)

/-- What one step of the workers preserves. -/
theorem retried_next (hlimit : 1 ≤ maxAttempts) (inputs : Inputs F) {s : System T × ClaimCounts}
    {a : Action T} (ha : FixedLimit maxAttempts a) (hs : Retried maxAttempts s) :
    Retried maxAttempts (((workers T inputs).withHistory recordClaims).next s a) := by
  refine ⟨?_, limited_step hlimit inputs ha hs.limited⟩
  change Counted maxAttempts (s.1.step inputs a).queue (recordClaims s.2 s.1 a ())
  rw [step_queue, recordClaims]
  cases hop : s.1.queueCall a with
  | none => exact hs.counted
  | some op => exact counted_next hlimit (limits_systemCall hs.limited hop) hs.counted

/-- In every run of workers with one retry limit, a job is claimed at most as often as the
limit says and once more for each lease of it that expired and was taken over; and a job
that waits to be claimed has been claimed less often than the limit. -/
theorem claims_bounded (inputs : Inputs F) (hlimit : 1 ≤ maxAttempts) (actions : List (Action T))
    (hfixed : ∀ a ∈ actions, FixedLimit maxAttempts a) :
    (∀ j, ((((workers T inputs).withHistory recordClaims).run
        (System.init, ClaimCounts.zero) actions).2 j).total ≤
      maxAttempts + ((((workers T inputs).withHistory recordClaims).run
        (System.init, ClaimCounts.zero) actions).2 j).takeovers) ∧
    ∀ j r, (((workers T inputs).withHistory recordClaims).run
        (System.init, ClaimCounts.zero) actions).1.queue.find? j = some r → r.status = .pending →
      ((((workers T inputs).withHistory recordClaims).run
        (System.init, ClaimCounts.zero) actions).2 j).total < maxAttempts := by
  have hretried := Machine.Along.run_invariant (I := Retried maxAttempts)
    (fun s a ha hs => retried_next hlimit inputs ha hs)
    (Machine.along_of_mem (System.init, ClaimCounts.zero) hfixed)
    ⟨counted_empty, fun i t ht => by cases ht⟩
  exact ⟨hretried.counted.bounded, hretried.counted.pending⟩

/-! ### One job -/

section Example

/-- Four times a worker claims the job and dies, and its lease expires. -/
def crashLoop : List (Action ℤ) :=
  [.enqueue (lit "inbox/ws-1.json") 0, .claim 0 (processOf "worker-a") 0, .work 0 .crash,
    .claim 0 (processOf "worker-b") 300, .work 0 .crash, .claim 0 (processOf "worker-c") 600,
    .work 0 .crash, .claim 0 (processOf "worker-d") 900]

theorem fixedLimit_crashLoop : ∀ a ∈ crashLoop, FixedLimit 3 a := by
  intro a ha
  simp only [crashLoop, List.mem_cons, List.not_mem_nil, or_false] at ha
  rcases ha with rfl | rfl | rfl | rfl | rfl | rfl | rfl | rfl
  all_goals first
    | rfl
    | trivial

theorem claims_bounded_crashLoop : ((((workers ℤ postureInputs).withHistory recordClaims).run
    (System.init, ClaimCounts.zero) crashLoop).2 1).total ≤
      3 + ((((workers ℤ postureInputs).withHistory recordClaims).run
        (System.init, ClaimCounts.zero) crashLoop).2 1).takeovers :=
  (claims_bounded postureInputs (by decide) crashLoop fixedLimit_crashLoop).1 1

/-- The fourth claim of a job with three attempts. -/
theorem claimed_beyond_limit : ¬ ∀ actions : List (Action ℤ), (∀ a ∈ actions, FixedLimit 3 a) →
    ∀ j, ((((workers ℤ postureInputs).withHistory recordClaims).run
      (System.init, ClaimCounts.zero) actions).2 j).total ≤ 3 := by
  intro h
  have hfour := h crashLoop fixedLimit_crashLoop 1
  revert hfour
  decide +kernel

end Example

end SentinelGRC.Pipeline
