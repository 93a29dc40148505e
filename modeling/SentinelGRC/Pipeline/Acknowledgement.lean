import SentinelGRC.Pipeline.Worker

/-!
No evidence is acknowledged unprocessed, in the runs that avoid two events.
`run_pipeline` answers `duplicate` to a worker that meets another executor's live
run lease, although the run may never be completed; and `fail_pipeline_run`
marks a run failed that somebody else completed. Where neither happens to a run
that a worker or a finished job relies on, every completed job has a completed run.
-/

namespace SentinelGRC.Pipeline

open Python Store Jobs Transition

variable {T F : Type} [Clock T] [PyFloat F]

/-! ### What a step can do -/

/-- The run a stage works for. -/
def Stage.hash? : Stage → Option Text
  | .executing h | .recorded h | .failing h _ | .answered h | .acknowledging h => some h
  | _ => none

/-- The worker recorded the run, or `run_pipeline` told it that the run is done. -/
def Stage.Told (h : Text) : Stage → Prop
  | .recorded h' | .answered h' | .acknowledging h' => h' = h
  | _ => False

theorem Stage.Told.hash {h : Text} : ∀ {stage : Stage}, stage.Told h → stage.hash? = some h
  | .recorded _, rfl | .answered _, rfl | .acknowledging _, rfl => rfl

/-- The same job at a stage that claims nothing new about its run. -/
structure Follows (t t' : Task T) : Prop where
  job : t'.job = t.job
  hash : ∀ h, t'.stage.hash? = some h → t.stage.hash? = some h
  told : ∀ h, t'.stage.Told h → t.stage.Told h
  executing : ∀ h, t'.stage = .executing h → t.stage = .executing h

omit [Clock T] in
theorem Follows.of_stage {t t' : Task T} (hjob : t'.job = t.job) (hstage : t'.stage = t.stage) :
    Follows t t' := by
  constructor
  · exact hjob
  · rw [hstage]; exact fun _ h => h
  · rw [hstage]; exact fun _ h => h
  · rw [hstage]; exact fun _ h => h

omit [Clock T] in
/-- A stage without a run claims nothing. -/
theorem Follows.of_none {t t' : Task T} (hjob : t'.job = t.job) (hstage : t'.stage.hash? = none) :
    Follows t t' := by
  constructor
  · exact hjob
  · rw [hstage]; exact fun _ h => absurd h (by simp)
  · intro h htold
    rw [htold.hash] at hstage
    cases hstage
  · intro h he
    rw [he] at hstage
    cases hstage

/-- Everything a step can do to the tables and to the worker's task. -/
inductive TaskEffect (inputs : Inputs F) (queue : Queue T) (runs : PipelineRuns T) (t : Task T) :
    TaskStep T → Queue T → PipelineRuns T → Option (Task T) → Prop
  | proceeds {step op a queue' t'} (he : Effect queue op a queue')
      (hop : ∀ j w now, op ≠ .complete j w now) (hf : Follows t t') :
      TaskEffect inputs queue runs t step queue' runs (some t')
  | drops {step op a queue'} (he : Effect queue op a queue')
      (hop : ∀ j w now, op ≠ .complete j w now) :
      TaskEffect inputs queue runs t step queue' runs none
  | starts (h now) (hs : t.stage = .loaded) (hh : inputs.runHash t.job.payloadPath = .ok h)
      (hc : (claimPipelineRun runs h t.process.leaseSeconds now).2 = true) :
      TaskEffect inputs queue runs t (.start now) queue
        (claimPipelineRun runs h t.process.leaseSeconds now).1
        (some { t with stage := .executing h })
  | duplicate (h now) (hs : t.stage = .loaded) (hh : inputs.runHash t.job.payloadPath = .ok h)
      (hc : (claimPipelineRun runs h t.process.leaseSeconds now).2 = false) :
      TaskEffect inputs queue runs t (.start now) queue
        (claimPipelineRun runs h t.process.leaseSeconds now).1 (some { t with stage := .answered h })
  | records (h outputs now) (hs : t.stage = .executing h) :
      TaskEffect inputs queue runs t (.record outputs now) queue
        (completePipelineRun runs h outputs now) (some { t with stage := .recorded h })
  | failsRun (h error error' codecError now runs') (hs : t.stage = .failing h error)
      (hr : failPipelineRun runs h error now = .ok runs') :
      TaskEffect inputs queue runs t (.failRun codecError now) queue runs' (some (t.raised error'))
  | acknowledges (h w now a queue') (hs : t.stage = .acknowledging h)
      (he : Effect queue (.complete t.job.jobId w now) a queue') :
      TaskEffect inputs queue runs t (.acknowledge now) queue' runs none

theorem renew_effect (queue : Queue T) (j : ℕ) (w : Text) (lease : ℤ) (now : T) :
    ∃ op a, Effect queue op a (queue.renew j w lease now).1 ∧
      ∀ j' w' now', op ≠ .complete j' w' now' :=
  ⟨.renew j w lease now, _, jobQueue_effect queue (.renew j w lease now), by simp⟩

/-- The idle call, for steps that do not touch the queue. -/
theorem idle_effect (queue : Queue T) : ∃ op a, Effect queue op a queue ∧
    ∀ j w now, op ≠ QueueOp.complete (T := T) j w now :=
  ⟨.enqueue [] Clock.epoch, .bool (.ok false), .idle .bool_false, by simp⟩

theorem TaskEffect.moves {inputs : Inputs F} {queue : Queue T} {runs : PipelineRuns T}
    {t t' : Task T} {step : TaskStep T} (hf : Follows t t') :
    TaskEffect inputs queue runs t step queue runs (some t') := by
  obtain ⟨op, a, he, hop⟩ := idle_effect queue
  exact .proceeds he hop hf

theorem TaskEffect.ends {inputs : Inputs F} {queue : Queue T} {runs : PipelineRuns T}
    {t : Task T} {step : TaskStep T} : TaskEffect inputs queue runs t step queue runs none := by
  obtain ⟨op, a, he, hop⟩ := idle_effect queue
  exact .drops he hop

theorem TaskEffect.stays {inputs : Inputs F} {queue : Queue T} {runs : PipelineRuns T}
    {t : Task T} {step : TaskStep T} : TaskEffect inputs queue runs t step queue runs (some t) :=
  .moves (.of_stage rfl rfl)

/-- Every step of a worker has one of the effects. -/
theorem taskStep_effect (inputs : Inputs F) (queue : Queue T) (runs : PipelineRuns T) (t : Task T)
    (step : TaskStep T) : TaskEffect inputs queue runs t step (taskStep inputs queue runs t step).1
      (taskStep inputs queue runs t step).2.1 (taskStep inputs queue runs t step).2.2 := by
  rcases t with ⟨process, job, stage, beating, lost⟩
  cases step with
  | renew now =>
    cases stage with
    | claimed =>
      obtain ⟨op, a, he, hop⟩ :=
        renew_effect queue job.jobId process.workerId process.leaseSeconds now
      unfold taskStep
      simp only
      split
      · rename_i queue' hr
        rw [hr] at he
        exact .proceeds he hop (.of_none rfl rfl)
      · rename_i queue' r _ hr
        rw [hr] at he
        exact .drops he hop
    | _ => exact .stays
  | storageError =>
    cases stage with
    | claimed => exact .ends
    | _ => exact .stays
  | beat now =>
    cases beating with
    | false => exact .stays
    | true =>
      obtain ⟨op, a, he, hop⟩ :=
        renew_effect queue job.jobId process.workerId process.leaseSeconds now
      unfold taskStep beat
      simp only [if_true]
      split
      · rename_i queue' hr
        rw [hr] at he
        exact .proceeds he hop (.of_stage rfl rfl)
      · rename_i queue' r _ hr
        rw [hr] at he
        exact .proceeds he hop (.of_stage rfl rfl)
  | beatError =>
    cases beating with
    | false => exact .stays
    | true => exact .moves (.of_stage rfl rfl)
  | read outcome =>
    cases stage with
    | supervised =>
      cases outcome with
      | bytes =>
        cases lost with
        | false => exact .moves (.of_none rfl rfl)
        | true => exact .ends
      | osError => exact .moves (.of_none rfl rfl)
      | invalid error => exact .moves (.of_none rfl rfl)
    | _ => exact .stays
  | start now =>
    cases stage with
    | loaded =>
      unfold taskStep
      cases hh : inputs.runHash job.payloadPath with
      | error e => exact .stays
      | ok h =>
        simp only
        unfold startRun
        split
        · rename_i runs' hc
          have hstart : TaskEffect inputs queue runs ⟨process, job, .loaded, beating, lost⟩ _ queue _ _ :=
            .starts h now rfl hh (congrArg Prod.snd hc)
          rw [hc] at hstart
          exact hstart
        · rename_i runs' hc
          have hdup : TaskEffect inputs queue runs ⟨process, job, .loaded, beating, lost⟩ _ queue _ _ :=
            .duplicate h now rfl hh (congrArg Prod.snd hc)
          rw [hc] at hdup
          exact hdup
    | _ => exact .stays
  | record outputs now =>
    cases stage with
    | executing h => exact .records h outputs now rfl
    | _ => exact .stays
  | raise error =>
    cases stage with
    | executing h => exact .moves ⟨rfl, fun _ h => h, fun _ h => h, fun _ h => by cases h⟩
    | recorded h => exact .moves ⟨rfl, fun _ h => h, fun _ h => h.elim, fun _ h => by cases h⟩
    | loaded => exact .moves (.of_none rfl rfl)
    | answered h => exact .moves (.of_none rfl rfl)
    | acknowledging h => exact .moves (.of_none rfl rfl)
    | _ => exact .stays
  | audited =>
    cases stage with
    | recorded h => exact .moves ⟨rfl, fun _ h => h, fun _ h => h, fun _ h => by cases h⟩
    | _ => exact .stays
  | failRun codecError now =>
    cases stage with
    | failing h error =>
      unfold taskStep
      simp only
      split
      · rename_i runs' hr
        exact .failsRun h error error codecError now runs' rfl hr
      · exact .moves (.of_none rfl rfl)
    | _ => exact .stays
  | join =>
    cases stage with
    | answered h =>
      cases lost with
      | false => exact .moves ⟨rfl, fun _ h => h, fun _ h => h, fun _ h => by cases h⟩
      | true => exact .ends
    | _ => exact .stays
  | acknowledge now =>
    cases stage with
    | acknowledging h =>
      exact .acknowledges h process.workerId now _ _ rfl
        (jobQueue_effect queue (.complete job.jobId process.workerId now))
    | _ => exact .stays
  | failJob now =>
    cases stage with
    | raising error maxAttempts retryDelay =>
      exact .drops (jobQueue_effect queue
        (.fail job.jobId process.workerId error maxAttempts retryDelay now)) (by simp)
    | _ => exact .stays
  | crash => exact .ends

/-! ### The invariant -/

/-- What a worker may rely on about its job and its run. -/
structure TaskOk (inputs : Inputs F) (queue : Queue T) (runs : PipelineRuns T) (t : Task T) :
    Prop where
  job : ∃ r, queue.find? t.job.jobId = some r ∧ r.payloadPath = t.job.payloadPath
  hash : ∀ h, t.stage.hash? = some h → inputs.runHash t.job.payloadPath = .ok h
  run : ∀ h, t.stage = .executing h → ∃ r, runs.find? h = some r
  told : ∀ h, t.stage.Told h → Completed runs h

/-- Every completed job has a completed run. -/
def Acknowledged (inputs : Inputs F) (queue : Queue T) (runs : PipelineRuns T) : Prop :=
  ∀ j r, queue.find? j = some r → r.status = .completed →
    ∃ h, inputs.runHash r.payloadPath = .ok h ∧ Completed runs h

/-- The invariant of the workers. -/
structure Inv (inputs : Inputs F) (s : System T) : Prop where
  tasks : ∀ i t, s.workers i = some t → TaskOk inputs s.queue s.runs t
  acknowledged : Acknowledged inputs s.queue s.runs

/-- A run that a completed job or a worker relies on. -/
def Relied (inputs : Inputs F) (s : System T) (h : Text) : Prop :=
  (∃ j r, s.queue.find? j = some r ∧ r.status = .completed ∧
    inputs.runHash r.payloadPath = .ok h) ∨
  ∃ i t, s.workers i = some t ∧ t.stage.Told h

/-- A step avoids the two events: a worker claiming a run meets no live lease of
another executor, and a completed run that is relied on is not marked failed. -/
def Sound (inputs : Inputs F) (s : System T) : Action T → Prop
  | .work i (.start now) => ∀ t h r, s.workers i = some t → t.stage = .loaded →
      inputs.runHash t.job.payloadPath = .ok h → s.runs.find? h = some r →
      ¬ (r.status = .running ∧ now < r.runLeaseUntil)
  | .work i (.failRun _ _) => ∀ t h error, s.workers i = some t → t.stage = .failing h error →
      Completed s.runs h → ¬ Relied inputs s h
  | _ => True

section Frames

variable {inputs : Inputs F} {queue queue' : Queue T} {runs runs' : PipelineRuns T} {t t' : Task T}

omit [Clock T] in
theorem TaskOk.follows (h : TaskOk inputs queue runs t) (hf : Follows t t') :
    TaskOk inputs queue runs t' where
  job := by rw [hf.job]; exact h.job
  hash := by rw [hf.job]; exact fun k hk => h.hash k (hf.hash k hk)
  run k hk := h.run k (hf.executing k hk)
  told k hk := h.told k (hf.told k hk)

theorem TaskOk.after_queue {op : QueueOp T} {a : QueueAnswer T} (h : TaskOk inputs queue runs t)
    (he : Effect queue op a queue') : TaskOk inputs queue' runs t where
  job := by
    obtain ⟨r, hr, hpath⟩ := h.job
    obtain ⟨r', hr', hpath'⟩ := he.keeps_path hr
    exact ⟨r', hr', hpath'.trans hpath⟩
  hash := h.hash
  run := h.run
  told := h.told

omit [Clock T] in
theorem TaskOk.after_runs (h : TaskOk inputs queue runs t)
    (hrow : ∀ k r, runs.find? k = some r → ∃ r, runs'.find? k = some r)
    (htold : ∀ k, t.stage.Told k → Completed runs k → Completed runs' k) :
    TaskOk inputs queue runs' t where
  job := h.job
  hash := h.hash
  run k hk := by
    obtain ⟨r, hr⟩ := h.run k hk
    exact hrow k r hr
  told k hk := htold k hk (h.told k hk)

theorem Acknowledged.after_queue {op : QueueOp T} {a : QueueAnswer T}
    (h : Acknowledged inputs queue runs) (he : Effect queue op a queue')
    (hop : ∀ j w now, op ≠ .complete j w now) : Acknowledged inputs queue' runs := by
  intro j r' hr' hstatus
  obtain ⟨r, hr, hpath, hold | ⟨w, now, hcomplete⟩⟩ := he.completed_of hr' hstatus
  · rw [← hpath]
    exact h j r hr hold
  · exact absurd hcomplete (hop j w now)

omit [Clock T] in
theorem Acknowledged.after_runs (h : Acknowledged inputs queue runs)
    (hkeep : ∀ k, (∃ j r, queue.find? j = some r ∧ r.status = .completed ∧
      inputs.runHash r.payloadPath = .ok k) → Completed runs k → Completed runs' k) :
    Acknowledged inputs queue runs' := by
  intro j r hr hstatus
  obtain ⟨k, hk, hc⟩ := h j r hr hstatus
  exact ⟨k, hk, hkeep k ⟨j, r, hr, hstatus, hk⟩ hc⟩

/-- Completing a job whose worker was told that the run is done. -/
theorem Acknowledged.complete {h : Text} {w : Text} {now : T} {a : QueueAnswer T}
    (hack : Acknowledged inputs queue runs) (hok : TaskOk inputs queue runs t)
    (hs : t.stage = .acknowledging h) (he : Effect queue (.complete t.job.jobId w now) a queue') :
    Acknowledged inputs queue' runs := by
  intro j r' hr' hstatus
  obtain ⟨r, hr, hpath, hold | ⟨w', now', hcomplete⟩⟩ := he.completed_of hr' hstatus
  · rw [← hpath]
    exact hack j r hr hold
  · obtain ⟨p, hp, hjob⟩ := hok.job
    simp only [QueueOp.complete.injEq] at hcomplete
    obtain rfl := hcomplete.1
    obtain rfl := Option.some.inj (hr.symm.trans hp)
    rw [← hpath, hjob]
    exact ⟨h, hok.hash h (by rw [hs]; rfl), hok.told h (by rw [hs]; rfl)⟩

end Frames

omit [Clock T] in
/-- The other workers' tasks, and the new one of the worker that moved. -/
theorem tasks_update {workers : ℕ → Option (Task T)} {i : ℕ} {task : Option (Task T)}
    {P : Task T → Prop} (hothers : ∀ k t, k ≠ i → workers k = some t → P t)
    (hself : ∀ t, task = some t → P t) : ∀ k t, Function.update workers i task k = some t → P t := by
  intro k t hk
  by_cases hki : k = i
  · subst hki
    rw [Function.update_self] at hk
    exact hself t hk
  · rw [Function.update_of_ne hki] at hk
    exact hothers k t hki hk

/-- One step of a worker keeps the invariant, away from the two events. -/
theorem inv_taskStep {inputs : Inputs F} {s : System T} {i : ℕ} {t : Task T} {step : TaskStep T}
    {queue' : Queue T} {runs' : PipelineRuns T} {task : Option (Task T)}
    (ht : s.workers i = some t) (he : TaskEffect inputs s.queue s.runs t step queue' runs' task)
    (hsound : Sound inputs s (.work i step)) (hs : Inv inputs s) :
    Inv inputs ⟨queue', runs', Function.update s.workers i task⟩ := by
  have hok := hs.tasks i t ht
  cases he with
  | proceeds he hop hf =>
    refine ⟨tasks_update (fun k u _ hu => (hs.tasks k u hu).after_queue he) ?_, hs.acknowledged.after_queue he hop⟩
    intro u hu
    obtain rfl := Option.some.inj hu
    exact (hok.after_queue he).follows hf
  | drops he hop =>
    exact ⟨tasks_update (fun k u _ hu => (hs.tasks k u hu).after_queue he) (fun u hu => by cases hu),
      hs.acknowledged.after_queue he hop⟩
  | starts h now hstage hh hc =>
    have hkeep (k : Text) := (completed_claimPipelineRun s.runs h t.process.leaseSeconds now k).mpr
    refine ⟨tasks_update (fun k u _ hu => (hs.tasks k u hu).after_runs
        (fun _ _ hr => exists_claimPipelineRun h _ now hr) fun k _ => hkeep k) ?_,
      hs.acknowledged.after_runs fun k _ => hkeep k⟩
    intro u hu
    obtain rfl := Option.some.inj hu
    refine ⟨hok.job, ?_, ?_, fun _ htold => htold.elim⟩
    · rintro _ ⟨⟩
      exact hh
    · rintro _ ⟨⟩
      exact claimPipelineRun_true hc
  | duplicate h now hstage hh hc =>
    have hkeep (k : Text) := (completed_claimPipelineRun s.runs h t.process.leaseSeconds now k).mpr
    refine ⟨tasks_update (fun k u _ hu => (hs.tasks k u hu).after_runs
        (fun _ _ hr => exists_claimPipelineRun h _ now hr) fun k _ => hkeep k) ?_,
      hs.acknowledged.after_runs fun k _ => hkeep k⟩
    intro u hu
    obtain rfl := Option.some.inj hu
    -- no live lease was met, so the run that refused the claim is completed
    obtain ⟨r, hr, hcompleted | hlive⟩ := claimPipelineRun_false hc
    · refine ⟨hok.job, ?_, ?_, ?_⟩
      · rintro _ ⟨⟩
        exact hh
      · rintro _ ⟨⟩
      · rintro _ rfl
        exact hkeep _ ⟨r, hr, hcompleted⟩
    · exact absurd hlive (hsound t h r ht hstage hh hr)
  | records h outputs now hstage =>
    obtain ⟨p, hp⟩ := hok.run h hstage
    have hcomp (k : Text) := completed_completePipelineRun hp outputs now k
    refine ⟨tasks_update (fun k u _ hu => (hs.tasks k u hu).after_runs
        (fun _ _ hr => exists_completePipelineRun h outputs now hr)
        fun k _ hk => (hcomp k).mpr (.inr hk)) ?_,
      hs.acknowledged.after_runs fun k _ hk => (hcomp k).mpr (.inr hk)⟩
    intro u hu
    obtain rfl := Option.some.inj hu
    refine ⟨hok.job, ?_, ?_, ?_⟩
    · rintro _ ⟨⟩
      exact hok.hash h (by rw [hstage]; rfl)
    · rintro _ ⟨⟩
    · rintro _ rfl
      exact (hcomp _).mpr (.inl rfl)
  | failsRun h error error' codecError now _ hstage hr =>
    have hkeep (k : Text) (hrelied : Completed s.runs k → Relied inputs s k)
        (hk : Completed s.runs k) : Completed runs' k := by
      refine completed_failPipelineRun hr ?_ hk
      rintro rfl
      exact hsound t k error ht hstage hk (hrelied hk)
    refine ⟨tasks_update (fun k u _ hu => (hs.tasks k u hu).after_runs
        (fun _ _ hp => exists_failPipelineRun hr hp)
        fun k' htold => hkeep k' fun _ => .inr ⟨k, u, hu, htold⟩) ?_,
      hs.acknowledged.after_runs fun k hjob => hkeep k fun _ => .inl hjob⟩
    intro u hu
    obtain rfl := Option.some.inj hu
    exact (hok.after_runs (fun _ _ hp => exists_failPipelineRun hr hp)
      fun k' htold => hkeep k' fun _ => .inr ⟨i, t, ht, htold⟩).follows (.of_none rfl rfl)
  | acknowledges h w now a _ hstage he =>
    exact ⟨tasks_update (fun k u _ hu => (hs.tasks k u hu).after_queue he) (fun u hu => by cases hu),
      hs.acknowledged.complete hok hstage he⟩

theorem inv_claimJob {inputs : Inputs F} {s : System T} (hs : Inv inputs s) (i : ℕ)
    (process : Process) (now : T) : Inv inputs (claimJob s i process now) := by
  have he := s.queue.effect_claim process.workerId process.leaseSeconds now
  have hnot : ∀ j w now', QueueOp.claim process.workerId process.leaseSeconds now ≠
      .complete j w now' := by simp
  unfold claimJob
  split
  · rename_i queue' job hclaim
    rw [hclaim] at he
    refine ⟨tasks_update (fun k u _ hu => (hs.tasks k u hu).after_queue he) ?_,
      hs.acknowledged.after_queue he hnot⟩
    intro u hu
    obtain rfl := Option.some.inj hu
    exact ⟨he.claimed_row, (by rintro _ ⟨⟩), (by rintro _ ⟨⟩), fun _ h => h.elim⟩
  · rename_i queue' r _ hclaim
    rw [hclaim] at he
    exact ⟨fun k u hu => (hs.tasks k u hu).after_queue he, hs.acknowledged.after_queue he hnot⟩

theorem inv_step {inputs : Inputs F} {s : System T} (a : Action T) (hsound : Sound inputs s a)
    (hs : Inv inputs s) : Inv inputs (s.step inputs a) := by
  cases a with
  | enqueue path now =>
    have he := jobQueue_effect s.queue (.enqueue path now)
    exact ⟨fun k u hu => (hs.tasks k u hu).after_queue he, hs.acknowledged.after_queue he (by simp)⟩
  | claim i process now =>
    simp only [System.step]
    cases s.workers i with
    | some t => exact hs
    | none => exact inv_claimJob hs i process now
  | work i step =>
    simp only [System.step]
    cases ht : s.workers i with
    | none => exact hs
    | some t => exact inv_taskStep ht (taskStep_effect inputs s.queue s.runs t step) hsound hs

omit [Clock T] in
theorem inv_init (inputs : Inputs F) : Inv inputs (System.init : System T) := by
  constructor
  · intro i t ht
    cases ht
  · intro j r hr
    cases hr

/-- In every run that avoids the two events, every completed job has a completed run
for the hash of its payload. -/
theorem acknowledged_of_sound (inputs : Inputs F) (actions : List (Action T))
    (hsound : (workers T inputs).Along (Sound inputs) System.init actions) :
    Acknowledged inputs ((workers T inputs).run System.init actions).queue
      ((workers T inputs).run System.init actions).runs := by
  have hinv : Inv inputs ((workers T inputs).run System.init actions) := by
    refine hsound.run_invariant ?_ (inv_init inputs)
    intro s a hC hs
    exact inv_step a hC hs
  exact hinv.acknowledged

/-! ### One inbox file -/

section Example

def processOf (workerId : String) : Process := ⟨lit workerId, 300, 3, 60⟩

/-- A worker claims the job and its run and crashes; another claims the job again. -/
def crashAndReclaim : List (Action ℤ) :=
  [.enqueue (lit "inbox/ws-1.json") 0, .claim 0 (processOf "worker-a") 0, .work 0 (.renew 1),
    .work 0 (.read .bytes), .work 0 (.start 5), .work 0 .crash, .claim 1 (processOf "worker-b") 302,
    .work 1 (.renew 302), .work 1 (.read .bytes)]

theorem sound_start {inputs : Inputs F} {s : System ℤ} {i : ℕ} {now : ℤ}
    (h : s.runs.rows.all (fun r => !(r.status = .running && now < r.runLeaseUntil)) = true) :
    Sound inputs s (.work i (.start now)) := by
  rintro t k r - - - hr ⟨hrun, hlt⟩
  have hrow := List.all_eq_true.mp h r (Table.find?_eq_some.mp hr).1
  simp [hrun, hlt] at hrow

/-- The second worker starts after the run lease of the first, and does the work. -/
def reclaimAfterLease : List (Action ℤ) :=
  crashAndReclaim ++ [.work 1 (.start 305), .work 1 (.record ⟨[], [], [], []⟩ 306), .work 1 .audited,
    .work 1 .join, .work 1 (.acknowledge 307)]

theorem acknowledged_after_lease :
    (((workers ℤ postureInputs).run System.init reclaimAfterLease).queue.find? 1).map Job.status =
        some .completed ∧
      Acknowledged postureInputs ((workers ℤ postureInputs).run System.init reclaimAfterLease).queue
        ((workers ℤ postureInputs).run System.init reclaimAfterLease).runs := by
  refine ⟨by decide +kernel, acknowledged_of_sound postureInputs reclaimAfterLease ?_⟩
  simp only [reclaimAfterLease, crashAndReclaim, List.cons_append, List.nil_append, Machine.Along,
    and_true]
  refine ⟨trivial, trivial, trivial, trivial, sound_start ?_, trivial, trivial, trivial, trivial,
    sound_start ?_, trivial, trivial, trivial, trivial⟩
  · decide +kernel
  · decide +kernel

/-- The clock values of a run, in order. -/
def Action.time? : Action T → Option T
  | .enqueue _ now | .claim _ _ now | .work _ (.renew now) | .work _ (.beat now)
  | .work _ (.start now) | .work _ (.record _ now) | .work _ (.failRun _ now)
  | .work _ (.acknowledge now) | .work _ (.failJob now) => some now
  | _ => none

/-- The second worker starts while the lease of the crashed one is alive, is told
`duplicate`, and acknowledges evidence that nobody processed. -/
theorem acknowledged_unprocessed :
    ¬ ∀ actions : List (Action ℤ), (actions.filterMap Action.time?).Pairwise (· ≤ ·) →
      Acknowledged postureInputs ((workers ℤ postureInputs).run System.init actions).queue
        ((workers ℤ postureInputs).run System.init actions).runs := by
  intro h
  have hack := h (crashAndReclaim ++ [.work 1 (.start 303), .work 1 .join, .work 1 (.acknowledge 304)])
    (by decide)
  revert hack
  generalize hs : (workers ℤ postureInputs).run System.init _ = s
  intro hack
  have hjob : (s.queue.find? 1).map Job.status = some .completed := by
    rw [← hs]
    decide +kernel
  have hrun : s.runs.rows.map PipelineRun.status = [.running] := by
    rw [← hs]
    decide +kernel
  obtain ⟨r, hr, hstatus⟩ := Option.map_eq_some_iff.mp hjob
  obtain ⟨k, -, p, hp, hcompleted⟩ := hack 1 r hr hstatus
  have hmem := List.mem_map_of_mem (f := PipelineRun.status) (Table.find?_eq_some.mp hp).1
  rw [hrun, hcompleted] at hmem
  cases hmem with
  | tail _ hnil => cases hnil

end Example

end SentinelGRC.Pipeline
