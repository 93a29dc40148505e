import SentinelGRC.Jobs.Queue
import SentinelGRC.Pipeline.Runs

/-!
Pipeline workers over one job queue and one `pipeline_runs` table. Each worker
holds at most one claimed job and goes through the stages of
`_process_claimed_job` and `run_pipeline`; between two statements of a worker any
other worker, its own heartbeat, a producer or a crash may act. Storage errors
and the exceptions of code that writes neither table are steps of their own.
-/

namespace SentinelGRC.Pipeline

open Python Store Jobs Transition

/-- The settings of a worker process. -/
structure Process where
  workerId : Text
  leaseSeconds : ℤ
  maxAttempts : ℤ
  retryDelay : ℤ

/-- Where a worker stands with its job. -/
inductive Stage
  /-- Claimed; the initial renewal is next. -/
  | claimed
  /-- Renewed and under a heartbeat; the evidence is read next. -/
  | supervised
  /-- The evidence was read under the lease; `run_pipeline` is next. -/
  | loaded
  /-- The run was claimed and is being executed. -/
  | executing (inputHash : Text)
  /-- The run was completed; its audit entry is next. -/
  | recorded (inputHash : Text)
  /-- The execution raised; `fail_pipeline_run` is next. -/
  | failing (inputHash error : Text)
  /-- An exception reached the outer handler; `queue.fail` is next. -/
  | raising (error : Text) (maxAttempts retryDelay : ℤ)
  /-- `run_pipeline` returned `accepted` or `duplicate`. -/
  | answered (inputHash : Text)
  /-- The heartbeat was joined without a loss; `queue.complete` is next. -/
  | acknowledging (inputHash : Text)

/-- A job in a worker's hands. -/
structure Task (T : Type) where
  process : Process
  job : Job T
  stage : Stage
  /-- The heartbeat is running. -/
  beating : Bool
  /-- The heartbeat met a lost lease. -/
  lost : Bool

structure System (T : Type) where
  queue : Queue T
  runs : PipelineRuns T
  workers : ℕ → Option (Task T)

def System.init {T : Type} : System T := ⟨Queue.empty, Table.empty, fun _ => none⟩

/-- What reading the evidence comes to. -/
inductive ReadOutcome
  | bytes
  | osError
  | invalid (error : Text)

/-- The steps of a worker that holds a job. -/
inductive TaskStep (T : Type)
  | renew (now : T)
  | storageError
  | beat (now : T)
  | beatError
  | read (outcome : ReadOutcome)
  | start (now : T)
  | record (outputs : Outputs) (now : T)
  | raise (error : Text)
  | audited
  /-- `codecError` is the codec's message should the error text not encode. -/
  | failRun (codecError : Text) (now : T)
  | join
  | acknowledge (now : T)
  | failJob (now : T)
  | crash

inductive Action (T : Type)
  | enqueue (payloadPath : Text) (now : T)
  | claim (worker : ℕ) (process : Process) (now : T)
  | work (worker : ℕ) (step : TaskStep T)

/-! ### One step -/

section Steps

variable {T F : Type} [Clock T] [PyFloat F]

/-- Hand an exception to the outer handler with the worker's retry settings. -/
def Task.raised (t : Task T) (error : Text) : Task T :=
  { t with stage := .raising error t.process.maxAttempts t.process.retryDelay }

/-- The heartbeat's renewal: a refusal is flagged and ends it. -/
def beat (queue : Queue T) (t : Task T) (now : T) : Queue T × Task T :=
  match queue.renew t.job.jobId t.process.workerId t.process.leaseSeconds now with
  | (queue, .ok true) => (queue, t)
  | (queue, _) => (queue, { t with beating := false, lost := true })

/-- The claim of a run, once the evidence is parsed and hashed. A refusal is the
`duplicate` answer. -/
def startRun (runs : PipelineRuns T) (t : Task T) (inputHash : Text) (now : T) :
    PipelineRuns T × Task T :=
  match claimPipelineRun runs inputHash t.process.leaseSeconds now with
  | (runs, true) => (runs, { t with stage := .executing inputHash })
  | (runs, false) => (runs, { t with stage := .answered inputHash })

/-- The tables and the task after a step; a step that the stage does not offer changes
nothing. Evidence that does not parse raises, which is the step `raise`. -/
def taskStep (inputs : Inputs F) (queue : Queue T) (runs : PipelineRuns T) (t : Task T) :
    TaskStep T → Queue T × PipelineRuns T × Option (Task T)
  | .renew now =>
    match t.stage with
    | .claimed =>
      match queue.renew t.job.jobId t.process.workerId t.process.leaseSeconds now with
      | (queue, .ok true) => (queue, runs, some { t with stage := .supervised, beating := true })
      | (queue, _) => (queue, runs, none)
    | _ => (queue, runs, some t)
  | .storageError =>
    match t.stage with
    | .claimed => (queue, runs, none)
    | _ => (queue, runs, some t)
  | .beat now =>
    if t.beating then
      let (queue, t) := beat queue t now
      (queue, runs, some t)
    else (queue, runs, some t)
  | .beatError =>
    if t.beating then (queue, runs, some { t with beating := false, lost := true })
    else (queue, runs, some t)
  | .read outcome =>
    match t.stage, outcome with
    | .supervised, .bytes =>
      (queue, runs, if t.lost then none else some { t with stage := .loaded })
    | .supervised, .osError =>
      (queue, runs, some (t.raised (lit "evidence storage is temporarily unavailable")))
    | .supervised, .invalid error => (queue, runs, some { t with stage := .raising error 1 0 })
    | _, _ => (queue, runs, some t)
  | .start now =>
    match t.stage, inputs.runHash t.job.payloadPath with
    | .loaded, .ok inputHash =>
      let (runs, t) := startRun runs t inputHash now
      (queue, runs, some t)
    | _, _ => (queue, runs, some t)
  | .record outputs now =>
    match t.stage with
    | .executing inputHash =>
      (queue, completePipelineRun runs inputHash outputs now,
        some { t with stage := .recorded inputHash })
    | _ => (queue, runs, some t)
  | .raise error =>
    match t.stage with
    | .executing inputHash => (queue, runs, some { t with stage := .failing inputHash error })
    | .recorded inputHash => (queue, runs, some { t with stage := .failing inputHash error })
    | .loaded => (queue, runs, some (t.raised error))
    | .answered _ => (queue, runs, some (t.raised error))
    | .acknowledging _ => (queue, runs, some (t.raised error))
    | _ => (queue, runs, some t)
  | .audited =>
    match t.stage with
    | .recorded inputHash => (queue, runs, some { t with stage := .answered inputHash })
    | _ => (queue, runs, some t)
  | .failRun codecError now =>
    match t.stage with
    | .failing inputHash error =>
      match failPipelineRun runs inputHash error now with
      | .ok runs => (queue, runs, some (t.raised error))
      | .error _ => (queue, runs, some (t.raised codecError))
    | _ => (queue, runs, some t)
  | .join =>
    match t.stage with
    | .answered inputHash =>
      (queue, runs,
        if t.lost then none else some { t with stage := .acknowledging inputHash, beating := false })
    | _ => (queue, runs, some t)
  | .acknowledge now =>
    match t.stage with
    | .acknowledging _ =>
      ((queue.complete t.job.jobId t.process.workerId now).1, runs, none)
    | _ => (queue, runs, some t)
  | .failJob now =>
    match t.stage with
    | .raising error maxAttempts retryDelay =>
      ((queue.fail t.job.jobId t.process.workerId error maxAttempts retryDelay now).1, runs, none)
    | _ => (queue, runs, some t)
  | .crash => (queue, runs, none)

/-- A worker's claim; with no job to take it stays idle. -/
def claimJob (s : System T) (i : ℕ) (process : Process) (now : T) : System T :=
  match s.queue.claim process.workerId process.leaseSeconds now with
  | (queue, .ok (some job)) =>
    ⟨queue, s.runs, Function.update s.workers i (some ⟨process, job, .claimed, false, false⟩)⟩
  | (queue, _) => { s with queue }

def System.step (inputs : Inputs F) (s : System T) : Action T → System T
  | .enqueue path now => { s with queue := (s.queue.enqueue path now).1 }
  | .claim i process now =>
    match s.workers i with
    | some _ => s
    | none => claimJob s i process now
  | .work i step =>
    match s.workers i with
    | none => s
    | some t =>
      let (queue, runs, t) := taskStep inputs s.queue s.runs t step
      ⟨queue, runs, Function.update s.workers i t⟩

/-- All workers over one store. -/
def workers (T : Type) {F : Type} [Clock T] [PyFloat F] (inputs : Inputs F) :
    Machine (System T) (Action T) Unit where
  step s a := (s.step inputs a, ())

end Steps

end SentinelGRC.Pipeline
