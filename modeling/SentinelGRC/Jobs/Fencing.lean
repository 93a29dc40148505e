import SentinelGRC.Jobs.Queue

/-!
Fencing of the job queue. The answers the queue gives determine, for each job,
who holds its lease and until when, how often it was claimed and completed, and
whether it is finished. That history is a function of the row: the table refines
the lease protocol its callers see, over every sequence of calls, and the
order of the clock values they pass plays no part.
-/

namespace SentinelGRC.Jobs

open Python Store Transition

variable {T : Type} [Clock T]

/-! ### The protocol -/

/-- What the calls and their answers say about a job. -/
@[ext] structure JobHistory (T : Type) where
  /-- The worker of the most recent claim, until it was completed or failed, and
  the end of its lease as of the last successful renewal. -/
  holder : Option (Text × T)
  claims : ℕ
  completions : ℕ
  /-- Completed or dead. -/
  finished : Bool

abbrev History (T : Type) := ℕ → JobHistory T

def JobHistory.start : JobHistory T := ⟨none, 0, 0, false⟩

def History.start : History T := fun _ => .start

/-- The history after one more call, told from its arguments and answer alone. -/
def History.record (h : History T) (_ : Queue T) (op : QueueOp T) (answer : QueueAnswer T) :
    History T :=
  match op, answer with
  | .claim w lease now, .claimed (.ok (some job)) => Function.update h job.jobId
      { h job.jobId with
        holder := some (w, Clock.after now lease), claims := (h job.jobId).claims + 1 }
  | .renew j w lease now, .bool (.ok true) =>
    Function.update h j { h j with holder := some (w, Clock.after now lease) }
  | .complete j _ _, .bool (.ok true) => Function.update h j
      { h j with holder := none, completions := (h j).completions + 1, finished := true }
  | .fail j _ _ _ _ _, .failed (.ok .pending) => Function.update h j { h j with holder := none }
  | .fail j _ _ _ _ _, .failed (.ok .dead) =>
    Function.update h j { h j with holder := none, finished := true }
  | _, _ => h

/-- The worker holds an unexpired lease of the job. -/
def JobHistory.HeldBy (h : JobHistory T) (workerId : Text) (now : T) : Prop :=
  ∃ lockedUntil, h.holder = some (workerId, lockedUntil) ∧ now < lockedUntil

/-! ### Refinement -/

/-- The history a row tells. -/
def Job.history (r : Job T) : JobHistory T where
  holder := match r.status, r.workerId, r.lockedUntil with
    | .running, some w, some lockedUntil => some (w, lockedUntil)
    | _, _, _ => none
  claims := r.attempts
  completions := if r.status = .completed then 1 else 0
  finished := r.status = .completed || r.status = .dead

omit [Clock T] in
/-- The recorded history is the one the table tells. -/
def Agrees (q : Queue T) (h : History T) : Prop :=
  ∀ j, h j = ((q.find? j).map Job.history).getD .start

theorem leasedTo_iff {w : Text} {now : T} {r : Job T} :
    Queue.leasedTo w now r = true ↔ r.history.HeldBy w now := by
  rcases r with ⟨id, path, _ | _ | _ | _, attempts, available, _ | locked, _ | worker, error⟩ <;>
    simp [Queue.leasedTo, Job.history, JobHistory.HeldBy]

theorem holder_of_leasedTo {w : Text} {now : T} {r : Job T} (h : Queue.leasedTo w now r = true) :
    r.status = .running := by
  revert h
  unfold Queue.leasedTo
  split
  · intro _
    assumption
  · intro h
    cases h

omit [Clock T] in
theorem Agrees.of_find {q : Queue T} {h : History T} (ha : Agrees q h) {j : ℕ} {r : Job T}
    (hr : q.find? j = some r) : h j = r.history := by
  rw [ha j, hr]
  rfl

omit [Clock T] in
/-- Writing one row and recording what it then tells. -/
theorem Agrees.set {q : Queue T} {h : History T} (ha : Agrees q h) {k : ℕ} {r : Job T}
    {f : Job T → Job T} (hf : ∀ r, (f r).jobId = r.jobId) (hr : q.find? k = some r)
    {e : JobHistory T} (he : e = (f r).history) : Agrees (q.set k f hf) (Function.update h k e) := by
  intro j
  rw [Queue.find?_set]
  by_cases hj : j = k
  · subst hj
    rw [Function.update_self, hr, he]
    simp
  · rw [Function.update_of_ne hj, ha j]
    simp [hj]

theorem claimable_cases {now : T} {r : Job T} (h : Queue.claimable now r = true) :
    r.status = .pending ∨ r.status = .running := by
  revert h
  unfold Queue.claimable
  split
  · exact fun _ => .inl ‹_›
  · exact fun _ => .inr ‹_›
  · intro h
    cases h

/-- Every call keeps the table and the history in agreement. -/
theorem agrees_next {q : Queue T} {h : History T} (op : QueueOp T) (hs : Agrees q h) :
    Agrees ((jobQueue T).next q op) (h.record q op ((jobQueue T).answer q op)) := by
  have he := jobQueue_effect q op
  generalize (jobQueue T).answer q op = a at he ⊢
  generalize (jobQueue T).next q op = q' at he ⊢
  cases he with
  | idle hidle => cases hidle <;> cases op <;> exact hs
  | enqueued path now =>
    intro j
    change h j = _
    rw [hs j, Queue.find?_insert]
    split_ifs with hj
    · subst hj
      rw [q.find?_sequence]
      rfl
    · rfl
  | claimed w lease now r hr hc =>
    refine hs.set (Queue.jobId_take _ _) hr ?_
    have hnot : r.status ≠ .completed ∧ r.status ≠ .dead := by
      rcases claimable_cases hc with h | h <;> rw [h] <;> decide
    simp only [hs.of_find hr]
    simp [Job.history, Queue.take, hnot]
  | renewed j w lease now r hr hl =>
    refine hs.set (Queue.jobId_renewed _) hr ?_
    obtain ⟨lockedUntil, hheld, -⟩ := leasedTo_iff.mp hl
    have hrun := holder_of_leasedTo hl
    simp only [hs.of_find hr]
    rcases r with ⟨id, path, status, attempts, available, _ | locked, _ | worker, error⟩ <;>
      simp_all [Job.history, Queue.renewed]
  | completed j w now r hr hl =>
    refine hs.set Queue.jobId_completed hr ?_
    have hrun := holder_of_leasedTo hl
    simp only [hs.of_find hr]
    simp [Job.history, Queue.completed, hrun]
  | failed j w e attempts delay now r dead until' error hr hl =>
    have hrun := holder_of_leasedTo hl
    cases dead with
    | false =>
      refine hs.set (Queue.jobId_failed _ _ _) hr ?_
      simp only [hs.of_find hr]
      simp [Job.history, Queue.failed, hrun]
    | true =>
      refine hs.set (Queue.jobId_failed _ _ _) hr ?_
      simp only [hs.of_find hr]
      simp [Job.history, Queue.failed, hrun]

theorem agrees_run (ops : List (QueueOp T)) :
    Agrees (((jobQueue T).withHistory History.record).run (Queue.empty, History.start) ops).1
      (((jobQueue T).withHistory History.record).run (Queue.empty, History.start) ops).2 := by
  apply Machine.run_invariant (I := fun s : Queue T × History T => Agrees s.1 s.2)
  · intro s op hs
    exact agrees_next op hs
  · intro j
    rfl

/-! ### Fencing -/

/-- A worker id the calls accept: not blank, and text that SQLite binds. -/
def ValidWorker (workerId : Text) : Prop := blank workerId = false ∧ Scalar workerId

/-- What the queue keeps to, told from the answers given so far. -/
structure Fenced (q : Queue T) (h : History T) : Prop where
  renew_lost : ∀ j w lease now, ¬ (h j).HeldBy w now →
    (q.renew j w lease now).1 = q ∧
      (ValidWorker w → 0 < lease → (q.renew j w lease now).2 = .ok false)
  complete_lost : ∀ j w now, ¬ (h j).HeldBy w now →
    (q.complete j w now).1 = q ∧ (ValidWorker w → (q.complete j w now).2 = .ok false)
  fail_lost : ∀ j w e attempts delay now, ¬ (h j).HeldBy w now →
    (q.fail j w e attempts delay now).1 = q ∧
      (ValidWorker w → 1 ≤ attempts → 0 ≤ delay → q.find? j ≠ none →
        (q.fail j w e attempts delay now).2 = .ok .leaseLost)
  one_completer : ∀ j w w' now now', (q.complete j w now).2 = .ok true →
    (q.complete j w' now').2 = .ok true → w = w'
  completed_once : ∀ j, (h j).completions ≤ 1
  never_reclaimed : ∀ j r, q.find? j = some r → r.status = .completed ∨ r.status = .dead →
    ∀ later w lease now job,
      (((jobQueue T).run q later).claim w lease now).2 = .ok (some job) → job.jobId ≠ j
  attempts_eq : ∀ j r, q.find? j = some r → r.attempts = (h j).claims

section Lost

variable {q : Queue T} {h : History T}

theorem Agrees.not_leasedTo (ha : Agrees q h) {j : ℕ} {w : Text} {now : T}
    (hlost : ¬ (h j).HeldBy w now) {r : Job T} (hr : q.find? j = some r) :
    Queue.leasedTo w now r = false := by
  rw [ha.of_find hr, ← leasedTo_iff, Bool.not_eq_true] at hlost
  exact hlost

theorem Agrees.update_lost (ha : Agrees q h) {j : ℕ} {w : Text} {now : T}
    (hlost : ¬ (h j).HeldBy w now) (f : Job T → Job T) (hf : ∀ r, (f r).jobId = r.jobId) :
    q.update j (Queue.leasedTo w now) f hf = (q, false) := by
  rcases q.update_cases j (Queue.leasedTo w now) f hf with ⟨hu, -⟩ | ⟨r, hr, hl, -⟩
  · exact hu
  · rw [ha.not_leasedTo hlost hr] at hl
    cases hl

theorem Agrees.renew_lost (ha : Agrees q h) (j : ℕ) (w : Text) (lease : ℤ) (now : T)
    (hlost : ¬ (h j).HeldBy w now) : (q.renew j w lease now).1 = q ∧
      (ValidWorker w → 0 < lease → (q.renew j w lease now).2 = .ok false) := by
  unfold Queue.renew
  rw [ha.update_lost hlost]
  constructor
  · split_ifs <;> rfl
  · intro hw hlease
    rw [if_neg (by rw [hw.1]; simpa using hlease), if_neg (not_not.mpr hw.2)]

theorem Agrees.complete_lost (ha : Agrees q h) (j : ℕ) (w : Text) (now : T)
    (hlost : ¬ (h j).HeldBy w now) : (q.complete j w now).1 = q ∧
      (ValidWorker w → (q.complete j w now).2 = .ok false) := by
  unfold Queue.complete
  rw [ha.update_lost hlost]
  constructor
  · split_ifs <;> rfl
  · intro hw
    rw [if_neg (by rw [hw.1]; simp), if_neg (not_not.mpr hw.2)]

theorem Agrees.fail_lost (ha : Agrees q h) (j : ℕ) (w e : Text) (attempts delay : ℤ) (now : T)
    (hlost : ¬ (h j).HeldBy w now) : (q.fail j w e attempts delay now).1 = q ∧
      (ValidWorker w → 1 ≤ attempts → 0 ≤ delay → q.find? j ≠ none →
        (q.fail j w e attempts delay now).2 = .ok .leaseLost) := by
  unfold Queue.fail
  cases hr : q.find? j with
  | none =>
    refine ⟨?_, fun _ _ _ hj => absurd rfl hj⟩
    split_ifs <;> rfl
  | some r =>
    have hl := ha.not_leasedTo hlost hr
    simp only [hl, Bool.false_eq_true, not_false_eq_true, ↓reduceIte]
    constructor
    · split_ifs <;> rfl
    · intro hw hattempts hdelay _
      rw [if_neg]
      rw [hw.1]
      simp only [Bool.false_eq_true, false_or, not_or, not_lt]
      exact ⟨hattempts, hdelay⟩

end Lost

/-- Only a holder of the lease completes a job. -/
theorem complete_held {q : Queue T} {j : ℕ} {w : Text} {now : T}
    (h : (q.complete j w now).2 = .ok true) :
    ∃ r, q.find? j = some r ∧ r.history.HeldBy w now := by
  have he := jobQueue_effect q (.complete j w now)
  change Effect q _ (.bool (q.complete j w now).2) _ at he
  rw [h] at he
  generalize (jobQueue T).next q (.complete j w now) = q' at he
  cases he with
  | idle hidle => cases hidle
  | completed _ _ _ r hr hl => exact ⟨r, hr, leasedTo_iff.mp hl⟩

theorem one_completer {q : Queue T} {j : ℕ} {w w' : Text} {now now' : T}
    (h : (q.complete j w now).2 = .ok true) (h' : (q.complete j w' now').2 = .ok true) : w = w' := by
  obtain ⟨r, hr, until₁, hw, -⟩ := complete_held h
  obtain ⟨r', hr', until₂, hw', -⟩ := complete_held h'
  obtain rfl := Option.some.inj (hr.symm.trans hr')
  exact congrArg Prod.fst (Option.some.inj (hw.symm.trans hw'))

/-- A finished job: its row is `completed` or `dead`. -/
def Finished (j : ℕ) (q : Queue T) : Prop :=
  ∃ r, q.find? j = some r ∧ (r.status = .completed ∨ r.status = .dead)

omit [Clock T] in
/-- Writing a row that is pending or running does not touch a finished job. -/
theorem Finished.set {j k : ℕ} {q : Queue T} (h : Finished j q) {r : Job T}
    (hr : q.find? k = some r) (hopen : r.status = .pending ∨ r.status = .running) (f : Job T → Job T)
    (hf : ∀ r, (f r).jobId = r.jobId) : Finished j (q.set k f hf) := by
  obtain ⟨p, hp, hstatus⟩ := h
  have hjk : j ≠ k := by
    rintro rfl
    obtain rfl := Option.some.inj (hp.symm.trans hr)
    rcases hopen with h | h <;> rw [h] at hstatus <;> simp at hstatus
  exact ⟨p, by simp [Queue.find?_set, hp, hjk], hstatus⟩

theorem Finished.next {j : ℕ} {q : Queue T} (h : Finished j q) (op : QueueOp T) :
    Finished j ((jobQueue T).next q op) := by
  have he := jobQueue_effect q op
  generalize (jobQueue T).answer q op = a at he
  generalize (jobQueue T).next q op = q' at he ⊢
  cases he with
  | idle => exact h
  | enqueued path now =>
    obtain ⟨p, hp, hstatus⟩ := h
    refine ⟨p, ?_, hstatus⟩
    rw [Queue.find?_insert, if_neg, hp]
    rintro rfl
    rw [q.find?_sequence] at hp
    cases hp
  | claimed w lease now r hr hc => exact h.set hr (claimable_cases hc) _ _
  | renewed j w lease now r hr hl => exact h.set hr (.inr (holder_of_leasedTo hl)) _ _
  | completed j w now r hr hl => exact h.set hr (.inr (holder_of_leasedTo hl)) _ _
  | failed j w e attempts delay now r dead until' error hr hl =>
    exact h.set hr (.inr (holder_of_leasedTo hl)) _ _

theorem Finished.not_claimed {j : ℕ} {q : Queue T} (h : Finished j q) {w : Text} {lease : ℤ} {now : T}
    {job : Job T} (hclaim : (q.claim w lease now).2 = .ok (some job)) : job.jobId ≠ j := by
  rintro rfl
  have he := q.effect_claim w lease now
  rw [hclaim] at he
  generalize (q.claim w lease now).1 = q' at he
  obtain ⟨p, hp, hstatus⟩ := h
  cases he with
  | idle hidle => cases hidle
  | claimed _ _ _ r hr hc =>
    obtain rfl := Option.some.inj (hp.symm.trans hr)
    rcases claimable_cases hc with h | h <;> rw [h] at hstatus <;> simp at hstatus

theorem Agrees.fenced {q : Queue T} {h : History T} (ha : Agrees q h) : Fenced q h where
  renew_lost := ha.renew_lost
  complete_lost := ha.complete_lost
  fail_lost := ha.fail_lost
  one_completer _ _ _ _ _ := one_completer
  completed_once := by
    intro j
    rw [ha j]
    cases q.find? j with
    | none => exact Nat.zero_le 1
    | some r =>
      simp only [Option.map_some, Option.getD_some, Job.history]
      split_ifs <;> omega
  never_reclaimed := by
    intro j r hr hstatus later w lease now job hclaim
    have hfinished : Finished j ((jobQueue T).run q later) :=
      Machine.run_invariant _ (fun _ op hq => hq.next op) ⟨r, hr, hstatus⟩ later
    exact hfinished.not_claimed hclaim
  attempts_eq _ _ hr := by rw [ha.of_find hr]; rfl

/-- After any calls by any workers the queue fences its jobs. -/
theorem jobQueue_fenced (T : Type) [Clock T] (ops : List (QueueOp T)) :
    Fenced (((jobQueue T).withHistory History.record).run (Queue.empty, History.start) ops).1
      (((jobQueue T).withHistory History.record).run (Queue.empty, History.start) ops).2 :=
  (agrees_run ops).fenced

end SentinelGRC.Jobs
