import SentinelGRC.Delivery.Moves
import SentinelGRC.Delivery.Workers
import SentinelGRC.Protocol.Drain

/-!
The loops of the two delivery workers. Both call `run_once` until it finds nothing, does not
finish what it claimed, or has been called as often as it may. A loop that ends because it
found nothing has finished exactly the rows that nothing obstructed, whatever the publisher or
the archive did.
-/

namespace SentinelGRC.Delivery

open Python Json Store Governance Protocol

/-! ### Loops -/

/-- What `run_once` returns; `finished` is `"delivered"` or `"archived"`. -/
inductive RunResult
  | finished
  | empty
  | retry
  | dead
  | stale
  deriving DecidableEq

structure RunCounts where
  finished : ℕ
  empty : ℕ
  retry : ℕ
  dead : ℕ
  stale : ℕ
  deriving DecidableEq

def RunCounts.zero : RunCounts := ⟨0, 0, 0, 0, 0⟩

def RunCounts.add (counts : RunCounts) : RunResult → RunCounts
  | .finished => { counts with finished := counts.finished + 1 }
  | .empty => { counts with empty := counts.empty + 1 }
  | .retry => { counts with retry := counts.retry + 1 }
  | .dead => { counts with dead := counts.dead + 1 }
  | .stale => { counts with stale := counts.stale + 1 }

/-- The exit code of a worker that was not interrupted. -/
def RunCounts.exitCode (counts : RunCounts) : ℕ :=
  if counts.retry = 0 ∧ counts.dead = 0 ∧ counts.stale = 0 then 0 else 1

section Loop

variable {σ ι : Type}

/-- `_run_worker_loop` of the outbox without `--run-forever`, and the loop of the audit worker:
there is one run in the list for each of the `max_items`. -/
def workerLoop (runOnce : ι → σ → σ × Except PyError RunResult) :
    List ι → σ → RunCounts → σ × Except PyError RunCounts
  | [], s, counts => (s, .ok counts)
  | run :: runs, s, counts =>
    match runOnce run s with
    | (s, .error e) => (s, .error e)
    | (s, .ok .finished) => workerLoop runOnce runs s (counts.add .finished)
    | (s, .ok result) => (s, .ok (counts.add result))

end Loop

/-! ### The outbox worker -/

inductive HeartbeatStatus
  | running
  | degraded
  deriving DecidableEq

structure Heartbeat (F : Type) where
  workerId : Text
  heartbeatAt : F
  status : HeartbeatStatus

abbrev Heartbeats (F : Type) := Table (Heartbeat F) Text Heartbeat.workerId

variable {F : Type}

/-- `heartbeat`. -/
def heartbeat (beats : Heartbeats F) (workerId : Text) (status : HeartbeatStatus) (now : F) :
    Heartbeats F × Except PyError Unit :=
  if blank workerId then (beats, .error (.valueError (lit "worker heartbeat is invalid")))
  else if ¬ Scalar workerId then (beats, .error .unicodeEncodeError)
  else (beats.put ⟨workerId, now, status⟩, .ok ())

structure OutboxWorker where
  workerId : Text
  nonblank : blank workerId = false
  leaseSeconds : ℤ := 60
  maxAttempts : ℤ := 5
  retryDelay : ℤ := 30

/-- What a run draws and reads: the token of its claim, how the publisher behaves, and the clock
at each of its calls. -/
structure OutboxRun (F : Type) where
  token : Uuid
  publish : OutboxMessage → Publishing
  started : F
  claimed : F
  settled : F
  failed : F
  ended : F

structure OutboxState (F : Type) where
  outbox : Outbox F
  heartbeats : Heartbeats F

def Failed.result : Failed → RunResult
  | .stale => .stale
  | .dead => .dead
  | .retry => .retry

namespace OutboxWorker

variable [Clock F]

/-- The `except` clauses of `run_once`. A permanent error is failed with the default policy. -/
def fail (w : OutboxWorker) (outbox : Outbox F) (item : OutboxRow F) (error : Text) (permanent : Bool)
    (now : F) : Outbox F × Except PyError RunResult :=
  let (outbox, answer) :=
    if permanent then outbox.fail item error true 5 30 now
    else outbox.fail item error false w.maxAttempts w.retryDelay now
  (outbox, answer.map Failed.result)

/-- An exception of building a message or of acknowledging it. -/
def caught (w : OutboxWorker) (outbox : Outbox F) (item : OutboxRow F) (now : F) :
    OutboxError → Outbox F × Except PyError RunResult
  | .permanent message => w.fail outbox item message true now
  | .raised e => w.fail outbox item (errorText e) false now

variable [PyFloat F] (H : Digest)

/-- What `run_once` does with the item that it claimed. -/
def deliver (w : OutboxWorker) (run : OutboxRun F) (outbox : Outbox F) (item : OutboxRow F) :
    Outbox F × Except PyError RunResult :=
  match fromItem H item with
  | .error e => w.caught outbox item run.failed e
  | .ok message =>
    match run.publish message with
    | .raised error permanent _ => w.fail outbox item error permanent run.failed
    | .receipt messageId =>
      match outbox.acknowledge item messageId run.settled with
      | (outbox, .ok true) => (outbox, .ok .finished)
      | (outbox, .ok false) => (outbox, .ok .stale)
      | (outbox, .error e) => w.caught outbox item run.failed e

/-- `run_once`. -/
def runOnce (w : OutboxWorker) (run : OutboxRun F) (s : OutboxState F) :
    OutboxState F × Except PyError RunResult :=
  match heartbeat s.heartbeats w.workerId .running run.started with
  | (heartbeats, .error e) => (⟨s.outbox, heartbeats⟩, .error e)
  | (heartbeats, .ok ()) =>
    match s.outbox.claim w.workerId w.leaseSeconds run.token run.claimed with
    | (outbox, .error e) => (⟨outbox, heartbeats⟩, .error e)
    | (outbox, .ok none) =>
      (⟨outbox, (heartbeat heartbeats w.workerId .running run.ended).1⟩, .ok .empty)
    | (outbox, .ok (some item)) =>
      match w.deliver H run outbox item with
      | (outbox, .error e) => (⟨outbox, heartbeats⟩, .error e)
      | (outbox, .ok result) =>
        let status := if result = .finished then HeartbeatStatus.running else .degraded
        (⟨outbox, (heartbeat heartbeats w.workerId status run.ended).1⟩, .ok result)

end OutboxWorker

/-! ### The audit worker -/

structure AuditExportWorker where
  workerId : Text
  nonblank : blank workerId = false
  leaseSeconds : ℤ := 60
  maxAttempts : ℤ := 5
  retryDelay : ℤ := 30

/-- What a run of the audit worker draws and reads. -/
structure ExportRun (F : Type) where
  token : Uuid
  /-- `persist_event`; what it raises is not told apart. -/
  persistEvent : Json F → Option ArchivedAuditObject
  claimed : F
  acknowledged : F
  failed : F

namespace AuditExportWorker

variable [Clock F]

def fail (w : AuditExportWorker) (run : ExportRun F) (exports : Exports F) (item : AuditExport F) :
    Exports F × Except PyError RunResult :=
  let (exports, answer) := exports.fail item w.maxAttempts w.retryDelay run.failed
  (exports, answer.map Failed.result)

variable [PyFloat F]

/-- What `run_once` does with the item that it claimed. -/
def archive (w : AuditExportWorker) (run : ExportRun F) (exports : Exports F) (item : AuditExport F) :
    Exports F × Except PyError RunResult :=
  match (loads item.payloadJson : Except PyError (Json F)) with
  | .error _ => w.fail run exports item
  | .ok event =>
    match run.persistEvent event with
    | none => w.fail run exports item
    | some archived =>
      match exports.acknowledge item archived run.acknowledged with
      | (exports, .ok true) => (exports, .ok .finished)
      | (exports, .ok false) => (exports, .ok .stale)
      | (exports, .error _) => w.fail run exports item

/-- `run_once`. -/
def runOnce (w : AuditExportWorker) (run : ExportRun F) (exports : Exports F) :
    Exports F × Except PyError RunResult :=
  match exports.claim w.workerId w.leaseSeconds run.token run.claimed with
  | (exports, .error e) => (exports, .error e)
  | (exports, .ok none) => (exports, .ok .empty)
  | (exports, .ok (some item)) => w.archive run exports item

end AuditExportWorker

/-! ### Rows in the way of others -/

section Rows

variable {ρ : Type} {clash : ρ → ρ → Bool} [Deliverable ρ F clash]

/-- The ids of the finished rows. -/
def finishedIds (q : Unique ρ clash) : Set Text :=
  {id | ∃ r, find? q id = some r ∧ (progress r).finishedAt.isSome}

/-- An earlier row of the same finding. -/
def Earlier (q : Unique ρ clash) (i j : Text) : Prop :=
  ∃ a ∈ q.rows.map key, ∃ b ∈ q.rows.map key, a.id = i ∧ b.id = j ∧ a.findingId = b.findingId ∧
    a.eventSequence < b.eventSequence

variable [Clock F]

/-- Pending, due and not under a lease. -/
def Due (now : F) (r : ρ) : Prop :=
  isPending r = true ∧ (progress r).availableAt ≤ now ∧
    ∀ lockedUntil, (progress r).lockedUntil = some lockedUntil → lockedUntil ≤ now

/-- The ids of the rows that are finished or due. -/
def dueIds (q : Unique ρ clash) (now : F) : Set Text :=
  {id | ∃ r, find? q id = some r ∧ ((progress r).finishedAt.isSome ∨ Due now r)}

/-- One row has been finished. -/
structure Finishes (q : Unique ρ clash) (r : ρ) (q' : Unique ρ clash) : Prop where
  keys : q'.rows.map key = q.rows.map key
  found : ∃ r', (progress r').finishedAt.isSome ∧
    ∀ j, find? q' j = if j = (key r).id then some r' else find? q j

variable {q q' : Unique ρ clash} {r : ρ} {id : Text} {now later : F}

omit [Clock F] in
theorem earlier_iff {i j : Text} : Earlier q i j ↔ ∃ r s, find? q i = some r ∧ find? q j = some s ∧
    (key r).findingId = (key s).findingId ∧ (key r).eventSequence < (key s).eventSequence := by
  constructor
  · rintro ⟨a, ha, b, hb, rfl, rfl, hfinding, hsequence⟩
    obtain ⟨r, hr, rfl⟩ := List.mem_map.mp ha
    obtain ⟨s, hs, rfl⟩ := List.mem_map.mp hb
    exact ⟨r, s, find?_eq_some.mpr ⟨hr, rfl⟩, find?_eq_some.mpr ⟨hs, rfl⟩, hfinding, hsequence⟩
  · rintro ⟨r, s, hr, hs, hfinding, hsequence⟩
    obtain ⟨hr, hi⟩ := find?_eq_some.mp hr
    obtain ⟨hs, hj⟩ := find?_eq_some.mp hs
    exact ⟨key r, List.mem_map_of_mem hr, key s, List.mem_map_of_mem hs, hi, hj, hfinding, hsequence⟩

omit [Clock F] in
theorem wellFounded_earlier (q : Unique ρ clash) : WellFounded (Earlier q) := by
  let place (id : Text) : ℕ := ((find? q id).map fun r => (key r).eventSequence).getD 0
  refine Subrelation.wf (fun {i j} hij => ?_) (measure place).wf
  obtain ⟨r, s, hr, hs, -, hsequence⟩ := earlier_iff.mp hij
  simpa [measure, invImage, InvImage, WellFoundedRelation.rel, place, hr, hs] using hsequence

omit [Clock F] in
theorem Earlier.trans {i j k : Text} (hij : Earlier q i j) (hjk : Earlier q j k) : Earlier q i k := by
  obtain ⟨r, s, hr, hs, hfinding, hsequence⟩ := earlier_iff.mp hij
  obtain ⟨s', t, hs', ht, hfinding', hsequence'⟩ := earlier_iff.mp hjk
  obtain rfl := Option.some.inj (hs.symm.trans hs')
  exact earlier_iff.mpr ⟨r, t, hr, ht, hfinding.trans hfinding', hsequence.trans hsequence'⟩

theorem Due.mono (h : Due now r) (hlater : now ≤ later) : Due later r :=
  ⟨h.1, h.2.1.trans hlater, fun lockedUntil hlocked => (h.2.2 lockedUntil hlocked).trans hlater⟩

theorem claimable_iff (hr : r ∈ q.rows) : claimable q now r = true ↔
    Due now r ∧ AllBefore (Earlier q) (finishedIds q) (key r).id := by
  have hbefore : (!q.rows.any fun earlier => (key earlier).findingId == (key r).findingId &&
      decide ((key earlier).eventSequence < (key r).eventSequence) &&
        (progress earlier).finishedAt.isNone) = true ↔
      AllBefore (Earlier q) (finishedIds q) (key r).id := by
    have hfound := find?_eq_some.mpr ⟨hr, rfl⟩
    simp only [Bool.not_eq_true', List.any_eq_false, Bool.and_eq_true, beq_iff_eq,
      decide_eq_true_iff, Option.isNone_iff_eq_none, not_and, and_imp]
    constructor
    · intro h i hi
      obtain ⟨e, s, he, hs, hfinding, hsequence⟩ := earlier_iff.mp hi
      obtain rfl := Option.some.inj (hfound.symm.trans hs)
      refine ⟨e, he, ?_⟩
      rw [Option.isSome_iff_ne_none]
      exact h e (find?_eq_some.mp he).1 hfinding hsequence
    · intro h e he hfinding hsequence hunfinished
      have hfinde := find?_eq_some.mpr ⟨he, rfl⟩
      obtain ⟨e', he', hfinished⟩ :=
        h (key e).id (earlier_iff.mpr ⟨e, r, hfinde, hfound, hfinding, hsequence⟩)
      obtain rfl := Option.some.inj (hfinde.symm.trans he')
      rw [hunfinished] at hfinished
      cases hfinished
  rw [claimable, Bool.and_eq_true, Bool.and_eq_true, Bool.and_eq_true, hbefore, decide_eq_true_iff,
    Due]
  refine and_congr_left fun _ => ?_
  rw [and_assoc]
  refine and_congr_right fun _ => and_congr_right fun _ => ?_
  cases (progress r).lockedUntil <;> simp

theorem candidate_eq_none : candidate q now = none ↔ ∀ r ∈ q.rows, claimable q now r ≠ true := by
  rw [candidate, List.head?_eq_none_iff, ← List.length_eq_zero_iff, List.length_insertionSort,
    List.length_eq_zero_iff, List.filter_eq_nil_iff]

theorem claimable_of_candidate (h : candidate q now = some r) : r ∈ q.rows ∧ claimable q now r = true := by
  have hmem := List.mem_of_mem_head? h
  rwa [List.mem_insertionSort, List.mem_filter] at hmem

/-- A candidate is due, and everything before it is finished. -/
theorem dueIds_of_candidate (h : candidate q now = some r) (hlater : now ≤ later) :
    (key r).id ∈ dueIds q later ∧ AllBefore (Earlier q) (finishedIds q) (key r).id := by
  obtain ⟨hr, hclaimable⟩ := claimable_of_candidate h
  obtain ⟨hdue, hbefore⟩ := (claimable_iff hr).mp hclaimable
  exact ⟨⟨r, find?_eq_some.mpr ⟨hr, rfl⟩, .inr (hdue.mono hlater)⟩, hbefore⟩

/-- Without a candidate no unfinished row that is due has everything before it finished. -/
theorem finishedIds_of_no_candidate (h : candidate q now = none) :
    ∀ id ∈ dueIds q now, AllBefore (Earlier q) (finishedIds q) id → id ∈ finishedIds q := by
  rintro id ⟨r, hr, hfinished | hdue⟩ hbefore
  · exact ⟨r, hr, hfinished⟩
  · obtain ⟨hmem, rfl⟩ := find?_eq_some.mp hr
    exact absurd ((claimable_iff hmem).mpr ⟨hdue, hbefore⟩) (candidate_eq_none.mp h r hmem)

theorem finishedIds_subset_dueIds : finishedIds q ⊆ dueIds q now := by
  rintro id ⟨r, hr, hfinished⟩
  exact ⟨r, hr, .inl hfinished⟩

namespace Finishes

omit [Clock F] in
theorem earlier_eq (h : Finishes q r q') : Earlier q' = Earlier q := by
  funext i j
  rw [Earlier, Earlier, h.keys]

omit [Clock F] in
theorem finishedIds_eq (h : Finishes q r q') :
    finishedIds q' = insert (key r).id (finishedIds q) := by
  obtain ⟨r', hfinished, hfound⟩ := h.found
  ext j
  rw [Set.mem_insert_iff]
  by_cases hj : j = (key r).id
  · simp only [hj, true_or, iff_true]
    exact ⟨r', by rw [hfound, if_pos rfl], hfinished⟩
  · have hsame : find? q' j = find? q j := by rw [hfound, if_neg hj]
    simp only [finishedIds, Set.mem_ofPred_eq, hsame, hj, false_or]

theorem dueIds_eq (h : Finishes q r q') (hdue : (key r).id ∈ dueIds q now) :
    dueIds q' now = dueIds q now := by
  obtain ⟨r', hfinished, hfound⟩ := h.found
  ext j
  by_cases hj : j = (key r).id
  · subst hj
    simp only [hdue, iff_true]
    exact ⟨r', by rw [hfound, if_pos rfl], .inl hfinished⟩
  · have hsame : find? q' j = find? q j := by rw [hfound, if_neg hj]
    simp only [dueIds, Set.mem_ofPred_eq, hsame]

end Finishes

end Rows

/-! ### What a loop has finished -/

section Draining

variable {ρ σ ι : Type} {clash : ρ → ρ → Bool} [Deliverable ρ F clash] [Clock F]

/-- A `run_once` that finds nothing only when there is no candidate, and that reports a row as
finished only when it has finished the candidate. -/
structure Drainer (runOnce : ι → σ → σ × Except PyError RunResult) (queue : σ → Unique ρ clash)
    (claimed : ι → F) : Prop where
  empty : ∀ run s, (runOnce run s).2 = .ok .empty →
    candidate (queue s) (claimed run) = none ∧ queue (runOnce run s).1 = queue s
  finished : ∀ run s, (runOnce run s).2 = .ok .finished →
    ∃ r, candidate (queue s) (claimed run) = some r ∧ Finishes (queue s) r (queue (runOnce run s).1)

/-- A loop that ends because it found nothing has finished exactly the rows that, at its last
claim, were due with all earlier rows of their findings. -/
def DrainsExactly (runOnce : ι → σ → σ × Except PyError RunResult) (queue : σ → Unique ρ clash)
    (claimed : ι → F) : Prop :=
  ∀ (runs : List ι) (s : σ) (counts : RunCounts),
    (runs.map claimed).Pairwise (· ≤ ·) → (workerLoop runOnce runs s .zero).2 = .ok counts →
    counts.empty ≠ 0 → ∃ last ∈ runs, ∀ id,
      id ∈ finishedIds (queue (workerLoop runOnce runs s .zero).1) ↔
        id ∈ finishedIds (queue s) ∨
          Unobstructed (Earlier (queue s)) (dueIds (queue s) (claimed last)) id

variable {runOnce : ι → σ → σ × Except PyError RunResult} {queue : σ → Unique ρ clash}
  {claimed : ι → F}

/-- The rows that a loop finishes until it finds nothing are a drain. -/
theorem Drainer.drains (h : Drainer runOnce queue claimed) {runs : List ι} {s : σ}
    {counts after : RunCounts} (hclock : (runs.map claimed).Pairwise (· ≤ ·))
    (hloop : (workerLoop runOnce runs s counts).2 = .ok after) (hempty : after.empty ≠ counts.empty) :
    ∃ last ∈ runs, Drains (Earlier (queue s)) (dueIds (queue s) (claimed last)) (finishedIds (queue s))
      (finishedIds (queue (workerLoop runOnce runs s counts).1)) := by
  induction runs generalizing s counts with
  | nil =>
    obtain rfl := Except.ok.inj hloop
    exact absurd rfl hempty
  | cons run runs ih =>
    have hrun := h.empty run s
    have hfinish := h.finished run s
    rw [workerLoop] at hloop ⊢
    rcases hstep : runOnce run s with ⟨s', e | result⟩
    · rw [hstep] at hloop
      cases hloop
    · rw [hstep] at hloop hrun hfinish
      cases result with
      | empty =>
        obtain ⟨hnone, hsame⟩ := hrun rfl
        refine ⟨run, List.mem_cons_self, ?_⟩
        simp only [hsame]
        exact .stuck (finishedIds_of_no_candidate hnone)
      | finished =>
        obtain ⟨r, hr, hfinishes⟩ := hfinish rfl
        rw [List.map_cons, List.pairwise_cons] at hclock
        obtain ⟨last, hlast, hdrains⟩ := ih hclock.2 hloop hempty
        have hlater : claimed run ≤ claimed last := hclock.1 _ (List.mem_map_of_mem hlast)
        obtain ⟨hdue, hbefore⟩ := dueIds_of_candidate hr hlater
        rw [hfinishes.earlier_eq, hfinishes.dueIds_eq hdue, hfinishes.finishedIds_eq] at hdrains
        exact ⟨last, List.mem_cons_of_mem run hlast, .step _ hdue hbefore hdrains⟩
      | retry =>
        obtain rfl := Except.ok.inj hloop
        exact absurd rfl hempty
      | dead =>
        obtain rfl := Except.ok.inj hloop
        exact absurd rfl hempty
      | stale =>
        obtain rfl := Except.ok.inj hloop
        exact absurd rfl hempty

theorem Drainer.drainsExactly (h : Drainer runOnce queue claimed) :
    DrainsExactly runOnce queue claimed := by
  intro runs s counts hclock hloop hempty
  obtain ⟨last, hlast, hdrains⟩ := h.drains hclock hloop hempty
  exact ⟨last, hlast, fun id => hdrains.mem_iff (wellFounded_earlier (queue s))
    (fun _ _ _ => Earlier.trans) finishedIds_subset_dueIds⟩

end Draining

/-! ### Both workers drain -/

section Claims

variable {ρ : Type} {clash : ρ → ρ → Bool} [Deliverable ρ F clash] {q q' : Unique ρ clash}

theorem keys_set (q : Unique ρ clash) (id : Text) (w : Write ρ) :
    (set q id w).rows.map key = q.rows.map key := by
  simp only [set, Unique.map, List.map_map]
  refine List.map_congr_left fun s _ => ?_
  simp only [Function.comp]
  split_ifs
  · exact w.key_apply s
  · rfl

variable [Clock F] {refusal workerId : Text} {leaseSeconds : ℤ} {token : Uuid} {now : F}

theorem claim_eq_none (h : claim refusal q workerId leaseSeconds token now = (q', .ok none)) :
    candidate q now = none ∧ q' = q := by
  unfold claim at h
  by_cases hvalid : blank workerId ∨ leaseSeconds ≤ 0
  · rw [if_pos hvalid] at h
    cases h
  rw [if_neg hvalid] at h
  cases hcandidate : candidate q now with
  | none =>
    rw [hcandidate] at h
    exact ⟨rfl, (Prod.mk.inj h).1.symm⟩
  | some r =>
    rw [hcandidate] at h
    simp only at h
    by_cases hscalar : Scalar workerId
    · obtain ⟨hfound, -⟩ := candidate_eq_some hcandidate
      rw [if_neg (not_not.mpr hscalar), find?_set hfound, if_pos rfl] at h
      cases (Prod.mk.inj h).2
    · rw [if_pos hscalar] at h
      cases (Prod.mk.inj h).2

theorem claim_eq_item {item : ρ}
    (h : claim refusal q workerId leaseSeconds token now = (q', .ok (some item))) :
    ∃ r, candidate q now = some r ∧ Scalar workerId ∧
      q' = set q (key r).id (take (Clock.after now leaseSeconds) workerId token.hex) ∧
      item = (take (Clock.after now leaseSeconds) workerId token.hex).apply r := by
  unfold claim at h
  by_cases hvalid : blank workerId ∨ leaseSeconds ≤ 0
  · rw [if_pos hvalid] at h
    cases h
  rw [if_neg hvalid] at h
  cases hcandidate : candidate q now with
  | none =>
    rw [hcandidate] at h
    cases h
  | some r =>
    rw [hcandidate] at h
    simp only at h
    by_cases hscalar : Scalar workerId
    · obtain ⟨hfound, -⟩ := candidate_eq_some hcandidate
      rw [if_neg (not_not.mpr hscalar), find?_set hfound, if_pos rfl] at h
      obtain ⟨hq, hitem⟩ := Prod.mk.inj h
      exact ⟨r, rfl, hscalar, hq.symm, (Option.some.inj (Except.ok.inj hitem)).symm⟩
    · rw [if_pos hscalar] at h
      cases (Prod.mk.inj h).2

/-- A claimed row stands in the table as it was returned, unfinished. -/
theorem find?_of_claim {item : ρ}
    (h : claim refusal q workerId leaseSeconds token now = (q', .ok (some item))) :
    find? q' (key item).id = some item ∧ (progress item).finishedAt = none := by
  obtain ⟨r, hr, -, rfl, rfl⟩ := claim_eq_item h
  obtain ⟨hfound, hunfinished, -⟩ := candidate_eq_some hr
  rw [Write.key_apply, find?_set hfound, if_pos rfl]
  exact ⟨rfl, by simp [take, written, hunfinished]⟩

/-- A guarded update of a claimed row that finishes it has finished the candidate. -/
theorem finishes_of_update {item : ρ} {q'' : Unique ρ clash} {w : Write ρ} {guard : ρ → Bool}
    (hclaim : claim refusal q workerId leaseSeconds token now = (q', .ok (some item)))
    (h : update q' (key item).id guard w = (q'', true))
    (hw : ∀ s, (progress (w.apply s)).finishedAt.isSome) :
    ∃ r, candidate q now = some r ∧ Finishes q r q'' := by
  obtain ⟨htaken, -⟩ := find?_of_claim hclaim
  obtain ⟨r, hr, -, rfl, rfl⟩ := claim_eq_item hclaim
  obtain ⟨hfound, -⟩ := candidate_eq_some hr
  rw [update, htaken] at h
  simp only at h
  split_ifs at h
  · obtain ⟨rfl, -⟩ := Prod.mk.inj h
    refine ⟨r, hr, by rw [keys_set, keys_set],
      w.apply ((take (Clock.after now leaseSeconds) workerId token.hex).apply r), hw _, fun j => ?_⟩
    rw [find?_set htaken, find?_set hfound, Write.key_apply]
    split_ifs <;> rfl
  · cases (Prod.mk.inj h).2

omit [Clock F] in
/-- A failure is never reported as a finished run or as an empty one. -/
theorem result_ne {answer : Except PyError Failed} {result : RunResult}
    (h : answer.map Failed.result = .ok result) : result ≠ .empty ∧ result ≠ .finished := by
  cases answer with
  | error e => cases h
  | ok failed =>
    obtain rfl := Except.ok.inj h
    cases failed <;> exact ⟨by decide, by decide⟩

end Claims

section Outbox

variable [Clock F] {w : OutboxWorker} {run : OutboxRun F} {outbox outbox' : Outbox F}
  {item : OutboxRow F}

theorem OutboxWorker.fail_ne {error : Text} {permanent : Bool} {now : F} {result : RunResult}
    (h : (w.fail outbox item error permanent now).2 = .ok result) :
    result ≠ .empty ∧ result ≠ .finished := by
  unfold OutboxWorker.fail at h
  exact result_ne h

theorem OutboxWorker.caught_ne {now : F} {e : OutboxError} {result : RunResult}
    (h : (w.caught outbox item now e).2 = .ok result) : result ≠ .empty ∧ result ≠ .finished := by
  cases e with
  | permanent message => exact OutboxWorker.fail_ne h
  | raised e => exact OutboxWorker.fail_ne h

variable [PyFloat F] {H : Digest}

/-- What was delivered was acknowledged, and nothing claimed is reported as nothing. -/
theorem OutboxWorker.deliver_eq {result : RunResult}
    (h : (w.deliver H run outbox item).2 = .ok result) : result ≠ .empty ∧ (result = .finished →
      ∃ receipt, outbox.acknowledge item receipt run.settled =
        ((w.deliver H run outbox item).1, .ok true)) := by
  unfold OutboxWorker.deliver at h ⊢
  cases hmessage : fromItem H item with
  | error e =>
    rw [hmessage] at h
    obtain ⟨hempty, hfinished⟩ := OutboxWorker.caught_ne h
    exact ⟨hempty, fun hresult => absurd hresult hfinished⟩
  | ok message =>
    rw [hmessage] at h
    simp only at h ⊢
    cases hpublish : run.publish message with
    | raised error permanent accepted =>
      rw [hpublish] at h
      obtain ⟨hempty, hfinished⟩ := OutboxWorker.fail_ne h
      exact ⟨hempty, fun hresult => absurd hresult hfinished⟩
    | receipt messageId =>
      rw [hpublish] at h
      simp only at h ⊢
      rcases hack : outbox.acknowledge item messageId run.settled with ⟨outbox', e | answer⟩
      · rw [hack] at h
        obtain ⟨hempty, hfinished⟩ := OutboxWorker.caught_ne h
        exact ⟨hempty, fun hresult => absurd hresult hfinished⟩
      · rw [hack] at h
        cases answer with
        | true =>
          obtain rfl := Except.ok.inj h
          exact ⟨by decide, fun _ => ⟨messageId, hack⟩⟩
        | false =>
          obtain rfl := Except.ok.inj h
          exact ⟨by decide, fun hresult => by cases hresult⟩

omit [PyFloat F] in
theorem Outbox.acknowledge_eq_true {receipt : Text} {now : F}
    (hfound : find? outbox item.outboxId = some item) (hpending : item.deliveredAt = none)
    (h : outbox.acknowledge item receipt now = (outbox', .ok true)) :
    update outbox item.outboxId (heldBy item now) (Outbox.accepted now receipt) = (outbox', true) := by
  unfold Outbox.acknowledge Outbox.lookup at h
  by_cases hreceipt : receipt ≠ item.outboxId
  · rw [if_pos hreceipt] at h
    cases (Prod.mk.inj h).2
  rw [if_neg hreceipt] at h
  by_cases hscalar : ¬ Scalar item.outboxId
  · rw [if_pos hscalar] at h
    cases (Prod.mk.inj h).2
  rw [if_neg hscalar, hfound] at h
  simp only [hpending, Option.isSome_none, Bool.false_eq_true, if_false] at h
  unfold Outbox.settle at h
  split_ifs at h
  · rcases hupdate : update outbox item.outboxId (heldBy item now) (Outbox.accepted now receipt) with
      ⟨u, updated⟩
    rw [hupdate] at h
    obtain ⟨rfl, hok⟩ := Prod.mk.inj h
    rw [Except.ok.inj hok]
  · cases (Prod.mk.inj h).2

theorem OutboxWorker.drainer (H : Digest) (w : OutboxWorker) :
    Drainer (w.runOnce H) OutboxState.outbox (OutboxRun.claimed : OutboxRun F → F) where
  empty := by
    intro run s h
    unfold OutboxWorker.runOnce at h ⊢
    rcases hbeat : heartbeat s.heartbeats w.workerId .running run.started with ⟨heartbeats, e | ⟨⟩⟩
    · rw [hbeat] at h
      cases h
    rw [hbeat] at h
    simp only at h ⊢
    rcases hclaim : s.outbox.claim w.workerId w.leaseSeconds run.token run.claimed with
      ⟨outbox, e | _ | item⟩
    · rw [hclaim] at h
      cases h
    · exact claim_eq_none hclaim
    · rw [hclaim] at h
      simp only at h
      rcases hdeliver : w.deliver H run outbox item with ⟨outbox', e | result⟩
      · rw [hdeliver] at h
        cases h
      · rw [hdeliver] at h
        obtain rfl := Except.ok.inj h
        have hempty : (w.deliver H run outbox item).2 = .ok .empty := by rw [hdeliver]
        exact absurd rfl (OutboxWorker.deliver_eq hempty).1
  finished := by
    intro run s h
    unfold OutboxWorker.runOnce at h ⊢
    rcases hbeat : heartbeat s.heartbeats w.workerId .running run.started with ⟨heartbeats, e | ⟨⟩⟩
    · rw [hbeat] at h
      cases h
    rw [hbeat] at h
    simp only at h ⊢
    rcases hclaim : s.outbox.claim w.workerId w.leaseSeconds run.token run.claimed with
      ⟨outbox, e | _ | item⟩
    · rw [hclaim] at h
      cases h
    · rw [hclaim] at h
      cases h
    · rw [hclaim] at h
      simp only at h ⊢
      rcases hdeliver : w.deliver H run outbox item with ⟨outbox', e | result⟩
      · rw [hdeliver] at h
        cases h
      · rw [hdeliver] at h
        obtain rfl := Except.ok.inj h
        have hfinished : (w.deliver H run outbox item).2 = .ok .finished := by rw [hdeliver]
        obtain ⟨receipt, hack⟩ := (OutboxWorker.deliver_eq hfinished).2 rfl
        rw [hdeliver] at hack
        obtain ⟨hfound, hpending⟩ := find?_of_claim hclaim
        exact finishes_of_update hclaim (Outbox.acknowledge_eq_true hfound hpending hack) fun _ => rfl

end Outbox

section Exports

variable [Clock F] {w : AuditExportWorker} {run : ExportRun F} {exports exports' : Exports F}
  {item : AuditExport F}

theorem AuditExportWorker.fail_ne {result : RunResult} (h : (w.fail run exports item).2 = .ok result) :
    result ≠ .empty ∧ result ≠ .finished := by
  unfold AuditExportWorker.fail at h
  exact result_ne h

variable [PyFloat F]

theorem AuditExportWorker.archive_eq {result : RunResult}
    (h : (w.archive run exports item).2 = .ok result) : result ≠ .empty ∧ (result = .finished →
      ∃ archived, exports.acknowledge item archived run.acknowledged =
        ((w.archive run exports item).1, .ok true)) := by
  unfold AuditExportWorker.archive at h ⊢
  cases hload : (loads item.payloadJson : Except PyError (Json F)) with
  | error e =>
    rw [hload] at h
    obtain ⟨hempty, hfinished⟩ := AuditExportWorker.fail_ne h
    exact ⟨hempty, fun hresult => absurd hresult hfinished⟩
  | ok event =>
    rw [hload] at h
    simp only at h ⊢
    cases hpersist : run.persistEvent event with
    | none =>
      rw [hpersist] at h
      obtain ⟨hempty, hfinished⟩ := AuditExportWorker.fail_ne h
      exact ⟨hempty, fun hresult => absurd hresult hfinished⟩
    | some archived =>
      rw [hpersist] at h
      simp only at h ⊢
      rcases hack : exports.acknowledge item archived run.acknowledged with ⟨exports', e | answer⟩
      · rw [hack] at h
        obtain ⟨hempty, hfinished⟩ := AuditExportWorker.fail_ne h
        exact ⟨hempty, fun hresult => absurd hresult hfinished⟩
      · rw [hack] at h
        cases answer with
        | true =>
          obtain rfl := Except.ok.inj h
          exact ⟨by decide, fun _ => ⟨archived, hack⟩⟩
        | false =>
          obtain rfl := Except.ok.inj h
          exact ⟨by decide, fun hresult => by cases hresult⟩

omit [PyFloat F] in
theorem Exports.acknowledge_eq_true {archived : ArchivedAuditObject} {now : F}
    (h : exports.acknowledge item archived now = (exports', .ok true)) :
    update exports item.exportId (heldBy item now) (Exports.archived now archived) =
      (exports', true) := by
  unfold Exports.acknowledge at h
  split_ifs at h
  · rcases hupdate : update exports item.exportId (heldBy item now) (Exports.archived now archived) with
      ⟨u, updated⟩
    rw [hupdate] at h
    obtain ⟨rfl, hok⟩ := Prod.mk.inj h
    rw [Except.ok.inj hok]
  · cases (Prod.mk.inj h).2

theorem AuditExportWorker.drainer (w : AuditExportWorker) :
    Drainer w.runOnce id (ExportRun.claimed : ExportRun F → F) where
  empty := by
    intro run exports h
    unfold AuditExportWorker.runOnce at h ⊢
    rcases hclaim : exports.claim w.workerId w.leaseSeconds run.token run.claimed with
      ⟨exports', e | _ | item⟩
    · rw [hclaim] at h
      cases h
    · exact claim_eq_none hclaim
    · rw [hclaim] at h
      exact absurd rfl (AuditExportWorker.archive_eq h).1
  finished := by
    intro run exports h
    unfold AuditExportWorker.runOnce at h ⊢
    rcases hclaim : exports.claim w.workerId w.leaseSeconds run.token run.claimed with
      ⟨exports', e | _ | item⟩
    · rw [hclaim] at h
      cases h
    · rw [hclaim] at h
      cases h
    · rw [hclaim] at h
      obtain ⟨archived, hack⟩ := (AuditExportWorker.archive_eq h).2 rfl
      exact finishes_of_update hclaim (Exports.acknowledge_eq_true hack) fun _ => rfl

end Exports

/-- Whatever the publisher and the archive do, a loop of either worker that ends because it found
nothing has finished what nothing obstructed, and no more. -/
theorem workers_drain_exactly [Clock F] [PyFloat F] (H : Digest) (w : OutboxWorker)
    (v : AuditExportWorker) :
    DrainsExactly (w.runOnce H) OutboxState.outbox (OutboxRun.claimed : OutboxRun F → F) ∧
      DrainsExactly v.runOnce id (ExportRun.claimed : ExportRun F → F) :=
  ⟨(w.drainer H).drainsExactly, v.drainer.drainsExactly⟩

end SentinelGRC.Delivery
