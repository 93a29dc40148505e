import SentinelGRC.Python.Text
import SentinelGRC.Python.Decimal
import SentinelGRC.Python.Clock
import SentinelGRC.Store.Table
import SentinelGRC.Transition.Machine

/-!
The durable job queue: the `pipeline_jobs` table and the five operations on it,
each one SQLite transaction. Guarded updates are `UPDATE ... WHERE job_id = ?` with
further conditions on the row; their answer is whether a row was updated. An
exception leaves the transaction uncommitted, so the table is as before.
-/

namespace SentinelGRC.Jobs

open Python Store Transition

inductive JobStatus
  | pending
  | running
  | completed
  | dead
  deriving DecidableEq

/-- A row of `pipeline_jobs`. -/
structure Job (T : Type) where
  jobId : ℕ
  payloadPath : Text
  status : JobStatus
  attempts : ℕ
  availableAt : T
  lockedUntil : Option T
  workerId : Option Text
  lastError : Option Text
  deriving DecidableEq

/-- The table with its `AUTOINCREMENT` counter. Rows are never deleted, so they
stand in the order of their ids. -/
structure Queue (T : Type) where
  jobs : Table (Job T) ℕ Job.jobId
  sequence : ℕ
  bounded : ∀ r ∈ jobs.rows, r.jobId ≤ sequence
  ascending : (jobs.rows.map Job.jobId).Pairwise (· < ·)

namespace Queue

variable {T : Type}

def empty : Queue T := ⟨Table.empty, 0, by simp [Table.empty], by simp [Table.empty]⟩

def find? (q : Queue T) (jobId : ℕ) : Option (Job T) := q.jobs.find? jobId

/-! ### Statements -/

/-- The rows with a pending one under the next id. -/
abbrev insertedRows (q : Queue T) (payloadPath : Text) (availableAt : T) : List (Job T) :=
  q.jobs.rows ++ [⟨q.sequence + 1, payloadPath, .pending, 0, availableAt, none, none, none⟩]

theorem lt_inserted {q : Queue T} {payloadPath : Text} {availableAt : T} :
    ∀ a ∈ q.jobs.rows.map Job.jobId,
      ∀ b ∈ [(⟨q.sequence + 1, payloadPath, .pending, 0, availableAt, none, none, none⟩ : Job T)].map
        Job.jobId, a < b := by
  intro a ha b hb
  obtain ⟨r, hr, rfl⟩ := List.mem_map.mp ha
  have hbound := q.bounded r hr
  simp only [List.map_cons, List.map_nil, List.mem_singleton] at hb
  omega

theorem nodup_insertedRows (q : Queue T) (payloadPath : Text) (availableAt : T) :
    ((q.insertedRows payloadPath availableAt).map Job.jobId).Nodup := by
  rw [List.map_append, List.nodup_append]
  refine ⟨q.jobs.distinct, by simp, ?_⟩
  intro a ha b hb
  exact (lt_inserted a ha b hb).ne

theorem bounded_insertedRows (q : Queue T) (payloadPath : Text) (availableAt : T) :
    ∀ r ∈ q.insertedRows payloadPath availableAt, r.jobId ≤ q.sequence + 1 := by
  intro r hr
  rcases List.mem_append.mp hr with hr | hr
  · exact (q.bounded r hr).trans (Nat.le_succ _)
  · obtain rfl := List.mem_singleton.mp hr
    exact le_rfl

theorem ascending_insertedRows (q : Queue T) (payloadPath : Text) (availableAt : T) :
    ((q.insertedRows payloadPath availableAt).map Job.jobId).Pairwise (· < ·) := by
  rw [List.map_append, List.pairwise_append]
  exact ⟨q.ascending, by simp, lt_inserted⟩

/-- `INSERT` of a pending row under the next id. -/
def insert (q : Queue T) (payloadPath : Text) (availableAt : T) : Queue T where
  jobs := ⟨q.jobs.rows ++ [⟨q.sequence + 1, payloadPath, .pending, 0, availableAt, none, none, none⟩],
    q.nodup_insertedRows payloadPath availableAt⟩
  sequence := q.sequence + 1
  bounded := q.bounded_insertedRows payloadPath availableAt
  ascending := q.ascending_insertedRows payloadPath availableAt

/-- `UPDATE ... SET ... WHERE job_id = ?`. -/
def set (q : Queue T) (jobId : ℕ) (f : Job T → Job T) (hf : ∀ r, (f r).jobId = r.jobId) : Queue T where
  jobs := q.jobs.modify jobId f hf
  sequence := q.sequence
  bounded := by
    intro r hr
    obtain ⟨p, hp, rfl⟩ := List.mem_map.mp hr
    split_ifs
    · rw [hf]
      exact q.bounded p hp
    · exact q.bounded p hp
  ascending := by
    have hids : (q.jobs.modify jobId f hf).rows.map Job.jobId = q.jobs.rows.map Job.jobId := by
      rw [Table.modify, List.map_map]
      apply List.map_congr_left
      intro r _
      simp only [Function.comp]
      split_ifs
      · exact hf r
      · rfl
    rw [hids]
    exact q.ascending

/-- The same statement with further conditions on the row; the answer is `rowcount == 1`. -/
def update (q : Queue T) (jobId : ℕ) (guard : Job T → Bool) (f : Job T → Job T)
    (hf : ∀ r, (f r).jobId = r.jobId) : Queue T × Bool :=
  match q.find? jobId with
  | some r => if guard r then (q.set jobId f hf, true) else (q, false)
  | none => (q, false)

theorem find?_insert (q : Queue T) (path : Text) (now : T) (j : ℕ) :
    (q.insert path now).find? j =
      if q.sequence + 1 = j then some ⟨q.sequence + 1, path, .pending, 0, now, none, none, none⟩
      else q.find? j := by
  split_ifs with hj
  · rw [find?, Table.find?_eq_some]
    exact ⟨List.mem_append_right _ (List.mem_singleton_self _), hj⟩
  · refine Table.find?_congr fun r hr => ?_
    subst hr
    simp only [insert, List.mem_append, List.mem_singleton]
    constructor
    · rintro (h | rfl)
      · exact h
      · exact absurd rfl hj
    · exact .inl

theorem find?_set (q : Queue T) (k : ℕ) (f : Job T → Job T) (hf : ∀ r, (f r).jobId = r.jobId)
    (j : ℕ) : (q.set k f hf).find? j = (q.find? j).map fun r => if j = k then f r else r :=
  Table.find?_modify q.jobs k f hf j

theorem find?_sequence (q : Queue T) : q.find? (q.sequence + 1) = none := by
  rw [find?, Table.find?_eq_none]
  intro r hr
  have := q.bounded r hr
  omega

/-! ### Operations -/

section Operations

variable [Clock T]

/-- The columns a claim writes. -/
def take (workerId : Text) (lockedUntil : T) (r : Job T) : Job T :=
  { r with status := .running, attempts := r.attempts + 1, lockedUntil := some lockedUntil,
           workerId := some workerId }

def renewed (lockedUntil : T) (r : Job T) : Job T := { r with lockedUntil := some lockedUntil }

def completed (r : Job T) : Job T :=
  { r with status := .completed, lockedUntil := none, lastError := none }

def failed (dead : Bool) (availableAt : T) (error : Text) (r : Job T) : Job T :=
  { r with status := if dead then .dead else .pending, availableAt, lockedUntil := none,
           workerId := none, lastError := some error }

omit [Clock T] in
theorem jobId_take (w : Text) (lockedUntil : T) (r : Job T) :
    (take w lockedUntil r).jobId = r.jobId := rfl

omit [Clock T] in
theorem jobId_renewed (lockedUntil : T) (r : Job T) : (renewed lockedUntil r).jobId = r.jobId := rfl

omit [Clock T] in
theorem jobId_completed (r : Job T) : (completed r).jobId = r.jobId := rfl

omit [Clock T] in
theorem jobId_failed (dead : Bool) (availableAt : T) (error : Text) (r : Job T) :
    (failed dead availableAt error r).jobId = r.jobId := rfl

/-- A row that `claim` may take. -/
def claimable (now : T) (r : Job T) : Bool :=
  match r.status, r.lockedUntil with
  | .pending, _ => r.availableAt ≤ now
  | .running, some lockedUntil => lockedUntil ≤ now
  | _, _ => false

/-- The row is running under an unexpired lease of the worker. -/
def leasedTo (workerId : Text) (now : T) (r : Job T) : Bool :=
  match r.status, r.workerId, r.lockedUntil with
  | .running, some holder, some lockedUntil => holder = workerId && now < lockedUntil
  | _, _, _ => false

def enqueue (q : Queue T) (payloadPath : Text) (now : T) : Queue T × Except PyError Bool :=
  if ¬ Scalar payloadPath then (q, .error .unicodeEncodeError)
  else if q.jobs.rows.any fun r => r.payloadPath = payloadPath then (q, .ok false)
  else (q.insert payloadPath now, .ok true)

def claim (q : Queue T) (workerId : Text) (leaseSeconds : ℤ) (now : T) :
    Queue T × Except PyError (Option (Job T)) :=
  if blank workerId ∨ leaseSeconds ≤ 0 then
    (q, .error (.valueError (lit "worker_id and a positive lease_seconds are required")))
  else match q.jobs.rows.find? (claimable now) with
    | none => (q, .ok none)
    | some row =>
      if ¬ Scalar workerId then (q, .error .unicodeEncodeError)
      else
        (q.set row.jobId (take workerId (Clock.after now leaseSeconds)) (jobId_take _ _),
        .ok (some { row with attempts := row.attempts + 1 }))

def renew (q : Queue T) (jobId : ℕ) (workerId : Text) (leaseSeconds : ℤ) (now : T) :
    Queue T × Except PyError Bool :=
  if blank workerId ∨ leaseSeconds ≤ 0 then
    (q, .error (.valueError (lit "worker_id and a positive lease_seconds are required")))
  else if ¬ Scalar workerId then (q, .error .unicodeEncodeError)
  else
    let (q, updated) := q.update jobId (leasedTo workerId now)
      (renewed (Clock.after now leaseSeconds)) (jobId_renewed _)
    (q, .ok updated)

def complete (q : Queue T) (jobId : ℕ) (workerId : Text) (now : T) :
    Queue T × Except PyError Bool :=
  if blank workerId then (q, .error (.valueError (lit "worker_id is required")))
  else if ¬ Scalar workerId then (q, .error .unicodeEncodeError)
  else
    let (q, updated) := q.update jobId (leasedTo workerId now) completed jobId_completed
    (q, .ok updated)

/-- The answers of `fail`. -/
inductive Failed
  | pending
  | dead
  | leaseLost
  deriving DecidableEq

def fail (q : Queue T) (jobId : ℕ) (workerId error : Text) (maxAttempts retryDelay : ℤ) (now : T) :
    Queue T × Except PyError Failed :=
  if blank workerId ∨ maxAttempts < 1 ∨ retryDelay < 0 then
    (q, .error (.valueError (lit "worker_id, max_attempts, and retry_delay are invalid")))
  else match q.find? jobId with
    | none => (q, .error (.valueError (lit "Unknown job " ++ natText jobId ++ lit ".")))
    | some row =>
      if ¬ leasedTo workerId now row then (q, .ok .leaseLost)
      else if ¬ Scalar (error.take 2000) then (q, .error .unicodeEncodeError)
      else
        let dead : Bool := maxAttempts ≤ row.attempts
        (q.set jobId (failed dead (Clock.after now (if dead then 0 else retryDelay))
          (error.take 2000)) (jobId_failed _ _ _),
        .ok (if dead then .dead else .pending))

end Operations

end Queue

/-! ### The queue as a machine -/

variable {T : Type} [Clock T]

inductive QueueOp (T : Type)
  | enqueue (payloadPath : Text) (now : T)
  | claim (workerId : Text) (leaseSeconds : ℤ) (now : T)
  | renew (jobId : ℕ) (workerId : Text) (leaseSeconds : ℤ) (now : T)
  | complete (jobId : ℕ) (workerId : Text) (now : T)
  | fail (jobId : ℕ) (workerId error : Text) (maxAttempts retryDelay : ℤ) (now : T)

inductive QueueAnswer (T : Type)
  | bool (r : Except PyError Bool)
  | claimed (r : Except PyError (Option (Job T)))
  | failed (r : Except PyError Queue.Failed)

def QueueOp.apply (q : Queue T) : QueueOp T → Queue T × QueueAnswer T
  | .enqueue path now => let (q, r) := q.enqueue path now; (q, .bool r)
  | .claim w lease now => let (q, r) := q.claim w lease now; (q, .claimed r)
  | .renew j w lease now => let (q, r) := q.renew j w lease now; (q, .bool r)
  | .complete j w now => let (q, r) := q.complete j w now; (q, .bool r)
  | .fail j w e attempts delay now => let (q, r) := q.fail j w e attempts delay now; (q, .failed r)

/-- Any number of workers calling the queue in any order. -/
def jobQueue (T : Type) [Clock T] : Machine (Queue T) (QueueOp T) (QueueAnswer T) where
  step := QueueOp.apply

/-- The answers of a call that wrote nothing. -/
inductive QueueAnswer.Idle : QueueAnswer T → Prop
  | bool_error (e : PyError) : Idle (.bool (.error e))
  | bool_false : Idle (.bool (.ok false))
  | claimed_error (e : PyError) : Idle (.claimed (.error e))
  | claimed_none : Idle (.claimed (.ok none))
  | failed_error (e : PyError) : Idle (.failed (.error e))
  | leaseLost : Idle (.failed (.ok .leaseLost))

open Queue in
/-- Everything one call can do: its answer and the queue it leaves. -/
inductive Effect (q : Queue T) : QueueOp T → QueueAnswer T → Queue T → Prop
  | idle {op a} (h : a.Idle) : Effect q op a q
  | enqueued (path now) : Effect q (.enqueue path now) (.bool (.ok true)) (q.insert path now)
  | claimed (w lease now) (r : Job T) (hr : q.find? r.jobId = some r) (hc : claimable now r = true) :
      Effect q (.claim w lease now) (.claimed (.ok (some { r with attempts := r.attempts + 1 })))
        (q.set r.jobId (take w (Clock.after now lease)) (jobId_take _ _))
  | renewed (j w lease now) (r : Job T) (hr : q.find? j = some r) (hl : leasedTo w now r = true) :
      Effect q (.renew j w lease now) (.bool (.ok true))
        (q.set j (renewed (Clock.after now lease)) (jobId_renewed _))
  | completed (j w now) (r : Job T) (hr : q.find? j = some r) (hl : leasedTo w now r = true) :
      Effect q (.complete j w now) (.bool (.ok true)) (q.set j completed jobId_completed)
  | failed (j w e attempts delay now) (r : Job T) (dead : Bool) (until' : T) (error : Text)
      (hr : q.find? j = some r) (hl : leasedTo w now r = true) :
      Effect q (.fail j w e attempts delay now) (.failed (.ok (if dead then .dead else .pending)))
        (q.set j (failed dead until' error) (jobId_failed _ _ _))

namespace Queue

omit [Clock T] in
theorem update_cases (q : Queue T) (j : ℕ) (guard : Job T → Bool) (f : Job T → Job T)
    (hf : ∀ r, (f r).jobId = r.jobId) :
    (q.update j guard f hf = (q, false) ∧ ∀ r, q.find? j = some r → guard r = false) ∨
      ∃ r, q.find? j = some r ∧ guard r = true ∧ q.update j guard f hf = (q.set j f hf, true) := by
  unfold update
  cases hr : q.find? j with
  | none => exact .inl ⟨rfl, by simp⟩
  | some r =>
    by_cases hg : guard r = true
    · exact .inr ⟨r, rfl, hg, by simp [hg]⟩
    · refine .inl ⟨by simp [hg], fun p hp => ?_⟩
      obtain rfl := Option.some.inj hp
      simpa using hg

theorem effect_claim (q : Queue T) (w : Text) (lease : ℤ) (now : T) :
    Effect q (.claim w lease now) (.claimed (q.claim w lease now).2) (q.claim w lease now).1 := by
  unfold claim
  by_cases hv : blank w ∨ lease ≤ 0
  · rw [if_pos hv]
    exact .idle (.claimed_error _)
  rw [if_neg hv]
  cases hfind : q.jobs.rows.find? (claimable now) with
  | none => exact .idle .claimed_none
  | some r =>
    have hr : q.find? r.jobId = some r :=
      Table.find?_eq_some.mpr ⟨List.mem_of_find?_eq_some hfind, rfl⟩
    simp only
    by_cases hs : Scalar w
    · rw [if_neg (not_not.mpr hs)]
      exact .claimed w lease now r hr (List.find?_some hfind)
    · rw [if_pos hs]
      exact .idle (.claimed_error _)

theorem effect_fail (q : Queue T) (j : ℕ) (w e : Text) (attempts delay : ℤ) (now : T) :
    Effect q (.fail j w e attempts delay now) (.failed (q.fail j w e attempts delay now).2)
      (q.fail j w e attempts delay now).1 := by
  unfold fail
  by_cases hv : blank w ∨ attempts < 1 ∨ delay < 0
  · rw [if_pos hv]
    exact .idle (.failed_error _)
  rw [if_neg hv]
  cases hr : q.find? j with
  | none => exact .idle (.failed_error _)
  | some r =>
    simp only
    by_cases hl : leasedTo w now r = true
    · rw [if_neg (not_not.mpr hl)]
      by_cases hs : Scalar (e.take 2000)
      · rw [if_neg (not_not.mpr hs)]
        exact .failed j w e attempts delay now r _ _ _ hr hl
      · rw [if_pos hs]
        exact .idle (.failed_error _)
    · rw [if_pos hl]
      exact .idle .leaseLost

end Queue

theorem Effect.keeps_path {q q' : Queue T} {op : QueueOp T} {a : QueueAnswer T}
    (h : Effect q op a q') {j : ℕ} {r : Job T} (hr : q.find? j = some r) :
    ∃ r', q'.find? j = some r' ∧ r'.payloadPath = r.payloadPath := by
  have hset (k : ℕ) (f : Job T → Job T) (hf : ∀ r, (f r).jobId = r.jobId)
      (hpath : (f r).payloadPath = r.payloadPath) :
      ∃ r', (q.set k f hf).find? j = some r' ∧ r'.payloadPath = r.payloadPath := by
    rw [Queue.find?_set, hr]
    refine ⟨_, rfl, ?_⟩
    split_ifs
    · exact hpath
    · rfl
  cases h with
  | idle => exact ⟨r, hr, rfl⟩
  | enqueued path now =>
    refine ⟨r, ?_, rfl⟩
    rw [Queue.find?_insert, if_neg, hr]
    rintro rfl
    rw [q.find?_sequence] at hr
    cases hr
  | claimed => exact hset _ _ _ rfl
  | renewed => exact hset _ _ _ rfl
  | completed => exact hset _ _ _ rfl
  | failed => exact hset _ _ _ rfl

/-- The job a claim returns is in the table. -/
theorem Effect.claimed_row {q q' : Queue T} {op : QueueOp T} {job : Job T}
    (h : Effect q op (.claimed (.ok (some job))) q') :
    ∃ r, q'.find? job.jobId = some r ∧ r.payloadPath = job.payloadPath := by
  have he := h
  cases h with
  | idle hidle => cases hidle
  | claimed w lease now r hr hc =>
    obtain ⟨r', hr', hpath⟩ := he.keeps_path hr
    exact ⟨r', hr', hpath⟩

/-- A completed row was completed before, or is the one completed by this call. -/
theorem Effect.completed_of {q q' : Queue T} {op : QueueOp T} {a : QueueAnswer T}
    (h : Effect q op a q') {j : ℕ} {r' : Job T} (hr : q'.find? j = some r')
    (hstatus : r'.status = .completed) : ∃ r, q.find? j = some r ∧ r.payloadPath = r'.payloadPath ∧
      (r.status = .completed ∨ ∃ w now, op = .complete j w now) := by
  have hset (k : ℕ) (f : Job T → Job T) (hf : ∀ r, (f r).jobId = r.jobId)
      (hpath : ∀ r, (f r).payloadPath = r.payloadPath) (hq : (q.set k f hf).find? j = some r') :
      ∃ r, q.find? j = some r ∧ r.payloadPath = r'.payloadPath ∧
        (r = r' ∨ (j = k ∧ r' = f r)) := by
    rw [Queue.find?_set, Option.map_eq_some_iff] at hq
    obtain ⟨r, hfound, rfl⟩ := hq
    refine ⟨r, hfound, ?_, ?_⟩
    · split_ifs
      · exact (hpath r).symm
      · rfl
    · split_ifs with hj
      · exact .inr ⟨hj, rfl⟩
      · exact .inl rfl
  cases h with
  | idle => exact ⟨r', hr, rfl, .inl hstatus⟩
  | enqueued path now =>
    rw [Queue.find?_insert] at hr
    split_ifs at hr
    · obtain rfl := Option.some.inj hr
      cases hstatus
    · exact ⟨r', hr, rfl, .inl hstatus⟩
  | claimed w lease now p hp hc =>
    obtain ⟨r, hold, hpath, rfl | ⟨-, rfl⟩⟩ := hset _ _ (Queue.jobId_take _ _) (fun _ => rfl) hr
    · exact ⟨r, hold, hpath, .inl hstatus⟩
    · cases hstatus
  | renewed k w lease now p hp hl =>
    obtain ⟨r, hold, hpath, rfl | ⟨-, rfl⟩⟩ := hset _ _ (Queue.jobId_renewed _) (fun _ => rfl) hr
    · exact ⟨r, hold, hpath, .inl hstatus⟩
    · exact ⟨r, hold, hpath, .inl hstatus⟩
  | completed k w now p hp hl =>
    obtain ⟨r, hold, hpath, rfl | ⟨rfl, rfl⟩⟩ := hset _ _ Queue.jobId_completed (fun _ => rfl) hr
    · exact ⟨r, hold, hpath, .inl hstatus⟩
    · exact ⟨r, hold, hpath, .inr ⟨w, now, rfl⟩⟩
  | failed k w e attempts delay now p dead until' error hp hl =>
    obtain ⟨r, hold, hpath, rfl | ⟨-, rfl⟩⟩ := hset _ _ (Queue.jobId_failed _ _ _) (fun _ => rfl) hr
    · exact ⟨r, hold, hpath, .inl hstatus⟩
    · cases dead <;> cases hstatus

/-- Each call has one of the effects. -/
theorem jobQueue_effect (q : Queue T) (op : QueueOp T) :
    Effect q op ((jobQueue T).answer q op) ((jobQueue T).next q op) := by
  cases op with
  | enqueue path now =>
    change Effect q _ (.bool (q.enqueue path now).2) (q.enqueue path now).1
    unfold Queue.enqueue
    split_ifs
    · exact .idle .bool_false
    · exact .enqueued path now
    · exact .idle (.bool_error _)
  | claim w lease now => exact q.effect_claim w lease now
  | renew j w lease now =>
    change Effect q _ (.bool (q.renew j w lease now).2) (q.renew j w lease now).1
    unfold Queue.renew
    split_ifs
    · exact .idle (.bool_error _)
    · rcases q.update_cases j (Queue.leasedTo w now) (Queue.renewed (Clock.after now lease))
        (Queue.jobId_renewed _) with ⟨h, -⟩ | ⟨r, hr, hl, h⟩
      · rw [h]
        exact .idle .bool_false
      · rw [h]
        exact .renewed j w lease now r hr hl
    · exact .idle (.bool_error _)
  | complete j w now =>
    change Effect q _ (.bool (q.complete j w now).2) (q.complete j w now).1
    unfold Queue.complete
    split_ifs
    · exact .idle (.bool_error _)
    · rcases q.update_cases j (Queue.leasedTo w now) Queue.completed Queue.jobId_completed with
        ⟨h, -⟩ | ⟨r, hr, hl, h⟩
      · rw [h]
        exact .idle .bool_false
      · rw [h]
        exact .completed j w now r hr hl
    · exact .idle (.bool_error _)
  | fail j w e attempts delay now => exact q.effect_fail j w e attempts delay now

end SentinelGRC.Jobs
