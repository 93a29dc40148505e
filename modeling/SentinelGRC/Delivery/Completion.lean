import SentinelGRC.Delivery.Acceptance
import SentinelGRC.Delivery.Fencing
import SentinelGRC.Delivery.WorkerLoop

/-!
Loops that come to an end. A run whose publication is confirmed under its lease finishes a row,
so a loop with more of them than there are pending rows ends with an empty run and no failure.
-/

namespace SentinelGRC.Delivery

open Python Json Store Governance Protocol Transition

variable {F : Type}

/-! ### Counting -/

theorem countP_lt {α : Type} {p p' : α → Bool} {l : List α} (h : ∀ x ∈ l, p' x → p x) {x : α}
    (hx : x ∈ l) (hp : p x = true) (hp' : p' x = false) : l.countP p' < l.countP p := by
  induction l with
  | nil => cases hx
  | cons y l ih =>
    have hle := List.countP_mono_left fun z hz => h z (List.mem_cons_of_mem y hz)
    have hy := h y List.mem_cons_self
    rw [List.countP_cons, List.countP_cons]
    rcases List.mem_cons.mp hx with rfl | hx
    · simp only [hp, hp', if_true, Bool.false_eq_true, if_false]
      omega
    · have hlt := ih (fun z hz => h z (List.mem_cons_of_mem y hz)) hx
      split_ifs <;> grind

section Rows

variable {ρ : Type} {clash : ρ → ρ → Bool} [Deliverable ρ F clash] {q q' : Unique ρ clash} {r : ρ}

theorem pending_eq (q : Unique ρ clash) : (counts q).pending =
    (q.rows.map key).countP fun k => (find? q k.id).any isPending := by
  rw [counts, List.countP_map]
  refine List.countP_congr fun s hs => ?_
  simp [find?_eq_some.mpr ⟨hs, rfl⟩]

/-- A pending row that is finished is pending no longer. -/
theorem Finishes.pending_lt (h : Finishes q r q') (hr : find? q (key r).id = some r)
    (hpending : isPending r = true) : (counts q').pending < (counts q).pending := by
  obtain ⟨r', hfinished, hfound⟩ := h.found
  have hdone : isPending r' = false := by
    rw [isPending, Option.isNone_eq_false_iff.mpr hfinished, Bool.false_and]
  obtain ⟨hmem, -⟩ := find?_eq_some.mp hr
  rw [pending_eq, pending_eq, h.keys]
  refine countP_lt (x := key r) (fun k _ hk => ?_) (List.mem_map_of_mem hmem) ?_ ?_
  · rw [hfound] at hk
    split_ifs at hk with hid
    · rw [Option.any_some, hdone] at hk
      cases hk
    · exact hk
  · rw [hr, Option.any_some, hpending]
  · rw [hfound, if_pos rfl, Option.any_some, hdone]

end Rows

/-! ### Loops -/

section Loop

variable {ρ σ ι : Type} {clash : ρ → ρ → Bool} [Deliverable ρ F clash] [Clock F]

/-- In the states with an invariant, the run finishes the candidate, and keeps the invariant. -/
structure Confirmed (runOnce : ι → σ → σ × Except PyError RunResult) (queue : σ → Unique ρ clash)
    (claimed : ι → F) (I : σ → Prop) (run : ι) : Prop where
  empty : ∀ s, I s → candidate (queue s) (claimed run) = none → (runOnce run s).2 = .ok .empty
  finished : ∀ s r, I s → candidate (queue s) (claimed run) = some r →
    (runOnce run s).2 = .ok .finished ∧ I (runOnce run s).1

variable {runOnce : ι → σ → σ × Except PyError RunResult} {queue : σ → Unique ρ clash}
  {claimed : ι → F} {I : σ → Prop}

/-- Each run finishes a row, until one finds none. -/
theorem Drainer.completes (h : Drainer runOnce queue claimed) {runs : List ι}
    (hruns : ∀ run ∈ runs, Confirmed runOnce queue claimed I run) {s : σ} (hI : I s)
    (hmany : (counts (queue s)).pending < runs.length) (c : RunCounts) :
    ∃ finished, (workerLoop runOnce runs s c).2 =
      .ok { c with finished := c.finished + finished, empty := c.empty + 1 } := by
  induction runs generalizing s c with
  | nil => exact absurd hmany (Nat.not_lt_zero _)
  | cons run runs ih =>
    obtain ⟨hempty, hfinished⟩ := hruns run List.mem_cons_self
    rw [workerLoop]
    cases hcandidate : candidate (queue s) (claimed run) with
    | none =>
      have hresult := hempty s hI hcandidate
      rcases hrun : runOnce run s with ⟨s', result⟩
      rw [hrun] at hresult
      obtain rfl := hresult
      exact ⟨0, rfl⟩
    | some r =>
      obtain ⟨hresult, hI'⟩ := hfinished s r hI hcandidate
      obtain ⟨r', hr', hfinishes⟩ := h.finished run s hresult
      obtain rfl := Option.some.inj (hcandidate.symm.trans hr')
      obtain ⟨hfound, hunfinished, hdead, -⟩ := candidate_eq_some hcandidate
      have hpending : isPending r = true := by simp [isPending, hunfinished, hdead]
      have hlt := hfinishes.pending_lt hfound hpending
      rcases hrun : runOnce run s with ⟨s', result⟩
      rw [hrun] at hresult hI' hlt
      obtain rfl := hresult
      have hfewer : (counts (queue s')).pending < runs.length :=
        Nat.lt_of_lt_of_le hlt (Nat.lt_succ_iff.mp hmany)
      obtain ⟨finished, hloop⟩ := ih (fun run hrun => hruns run (List.mem_cons_of_mem _ hrun)) hI'
        hfewer (c.add .finished)
      refine ⟨finished + 1, hloop.trans ?_⟩
      rw [RunCounts.add, Nat.add_assoc, Nat.add_comm 1]

end Loop

/-! ### The outbox worker -/

section Claims

variable {ρ : Type} {clash : ρ → ρ → Bool} [Deliverable ρ F clash] [Clock F] {q : Unique ρ clash}
  {refusal workerId : Text} {leaseSeconds : ℤ} {token : Uuid} {now lockedUntil : F} {r : ρ}

/-- A worker with a valid name claims the candidate. -/
theorem claim_of_candidate (hblank : blank workerId = false) (hscalar : Scalar workerId)
    (hlease : 0 < leaseSeconds) (h : candidate q now = some r) :
    claim refusal q workerId leaseSeconds token now =
      (set q (key r).id (take (Clock.after now leaseSeconds) workerId token.hex),
        .ok (some ((take (Clock.after now leaseSeconds) workerId token.hex).apply r))) := by
  have hvalid : ¬ (blank workerId ∨ leaseSeconds ≤ 0) := by
    simp [hblank, hlease]
  obtain ⟨hfound, -⟩ := candidate_eq_some h
  rw [claim, if_neg hvalid, h]
  simp only [if_neg (not_not.mpr hscalar), find?_set hfound, if_true]

theorem claim_of_no_candidate (hblank : blank workerId = false) (hlease : 0 < leaseSeconds)
    (h : candidate q now = none) :
    claim refusal q workerId leaseSeconds token now = (q, .ok none) := by
  have hvalid : ¬ (blank workerId ∨ leaseSeconds ≤ 0) := by
    simp [hblank, hlease]
  rw [claim, if_neg hvalid, h]

theorem heldBy_taken {token : Text} (hpending : isPending r = true) (hnow : now < lockedUntil) :
    heldBy ((take lockedUntil workerId token).apply r) now
      ((take lockedUntil workerId token).apply r) = true := by
  have htaken : isPending ((take lockedUntil workerId token).apply r) = true := by
    simpa [isPending, take, written] using hpending
  rw [heldBy, leasedBy, htaken]
  simp [take, written, equals, hnow]

end Claims

section Outbox

variable [PyFloat F] {H : Digest} {outbox : Outbox F}

/-- No write of the queue changes what `from_item` reads. -/
theorem accepts_set {id : Text} {w : Write (OutboxRow F)}
    (hw : ∀ r, fromItem H (w.apply r) = fromItem H r) (h : ∀ r ∈ outbox.rows, OutboxAccepts H r) :
    ∀ r ∈ (set outbox id w).rows, OutboxAccepts H r := by
  intro r hr
  obtain ⟨s, hs, rfl⟩ := List.mem_map.mp hr
  obtain ⟨message, hmessage⟩ := h s hs
  refine ⟨message, ?_⟩
  split_ifs
  · rw [hw, hmessage]
  · exact hmessage

variable [Clock F] {w : OutboxWorker} {run : OutboxRun F}

/-- The publisher answers with the id of the message, and is heard under the lease. -/
structure OutboxWorker.Confirms (w : OutboxWorker) (run : OutboxRun F) : Prop where
  publishes : ∀ message, run.publish message = .receipt message.messageId
  inTime : run.settled < Clock.after run.claimed w.leaseSeconds

omit [PyFloat F] in
/-- The acknowledgement of a claimed row under its lease. -/
theorem Outbox.acknowledge_claimed {r : OutboxRow F} {workerId token : Text} {lockedUntil now : F}
    (hfound : find? outbox r.outboxId = some r) (hpending : isPending r = true)
    (hid : Scalar r.outboxId) (hworker : Scalar workerId) (htoken : Scalar token)
    (hnow : now < lockedUntil) :
    Outbox.acknowledge (set outbox r.outboxId (take lockedUntil workerId token))
        ((take lockedUntil workerId token).apply r) r.outboxId now =
      (set (set outbox r.outboxId (take lockedUntil workerId token)) r.outboxId
        (Outbox.accepted now r.outboxId), .ok true) := by
  have hunfinished : r.deliveredAt = none := by
    rw [isPending, Bool.and_eq_true, Option.isNone_iff_eq_none] at hpending
    exact hpending.1
  have htaken : find? (set outbox r.outboxId (take lockedUntil workerId token)) r.outboxId =
      some ((take lockedUntil workerId token).apply r) := by
    rw [find?_set hfound, if_pos rfl]
  have hlookup : Outbox.lookup (set outbox r.outboxId (take lockedUntil workerId token))
      ((take lockedUntil workerId token).apply r) r.outboxId = .ok none := by
    have hsame : ((take lockedUntil workerId token).apply r).outboxId = r.outboxId := rfl
    have hopen : ((take lockedUntil workerId token).apply r).deliveredAt = none := hunfinished
    simp [Outbox.lookup, hsame, hid, htaken, hopen]
  have hscalars : ∀ t ∈ [r.outboxId, ((take lockedUntil workerId token).apply r).outboxId] ++
      ((take lockedUntil workerId token).apply r).workerId.toList ++
        ((take lockedUntil workerId token).apply r).lockToken.toList, Scalar t := by
    simp [take, written, put, hid, hworker, htoken]
  rw [Outbox.acknowledge, hlookup]
  simp only [Outbox.settle, if_neg (not_not.mpr hscalars)]
  have hupdate : update (set outbox r.outboxId (take lockedUntil workerId token)) r.outboxId
      (heldBy ((take lockedUntil workerId token).apply r) now) (Outbox.accepted now r.outboxId) =
      (set (set outbox r.outboxId (take lockedUntil workerId token)) r.outboxId
        (Outbox.accepted now r.outboxId), true) := by
    rw [update, htaken]
    simp only [heldBy_taken hpending hnow, if_true]
  exact congrArg (fun u : Outbox F × Bool => (u.1, (.ok u.2 : Except OutboxError Bool))) hupdate

theorem OutboxWorker.confirmed (hworker : Scalar w.workerId) (hlease : 0 < w.leaseSeconds)
    (hrun : w.Confirms run) : Confirmed (w.runOnce H) OutboxState.outbox OutboxRun.claimed
      (fun s => ∀ r ∈ s.outbox.rows, OutboxAccepts H r) run where
  empty := by
    intro s _ h
    unfold OutboxWorker.runOnce heartbeat Outbox.claim
    simp only [w.nonblank, hworker, not_true_eq_false, Bool.false_eq_true, if_false,
      claim_of_no_candidate w.nonblank hlease h]
  finished := by
    intro s r hI h
    obtain ⟨hfound, hunfinished, hdead, -⟩ := candidate_eq_some h
    have hpending : isPending r = true := by simp [isPending, hunfinished, hdead]
    obtain ⟨message, hmessage⟩ := hI r (find?_eq_some.mp hfound).1
    obtain ⟨payload, body, hvalid, hfields⟩ := fromItem_eq_ok.mp hmessage
    have hid : message.messageId = r.outboxId := by rw [hfields]
    have hidScalar : Scalar r.outboxId := by
      have hhex := hvalid.outboxId
      rw [isId, Bool.and_eq_true, List.all_eq_true] at hhex
      exact scalar_of_isLowerHex hhex.2
    have htoken : Scalar run.token.hex := scalar_of_isLowerHex run.token.isLowerHex
    have htaken : fromItem H ((take (Clock.after run.claimed w.leaseSeconds) w.workerId
        run.token.hex).apply r) = .ok message := hmessage
    have hack := Outbox.acknowledge_claimed hfound hpending hidScalar hworker htoken hrun.inTime
    have hdeliver : w.deliver H run (set s.outbox r.outboxId
        (take (Clock.after run.claimed w.leaseSeconds) w.workerId run.token.hex))
        ((take (Clock.after run.claimed w.leaseSeconds) w.workerId run.token.hex).apply r) =
          (set (set s.outbox r.outboxId (take (Clock.after run.claimed w.leaseSeconds) w.workerId
            run.token.hex)) r.outboxId (Outbox.accepted run.settled r.outboxId), .ok .finished) := by
      rw [OutboxWorker.deliver, htaken]
      simp only [hrun.publishes, hid, hack]
    have hkey : (key r).id = r.outboxId := rfl
    unfold OutboxWorker.runOnce heartbeat Outbox.claim
    simp only [w.nonblank, hworker, not_true_eq_false, Bool.false_eq_true, if_false,
      claim_of_candidate w.nonblank hworker hlease h, hkey, hdeliver]
    exact ⟨trivial, accepts_set (fun _ => rfl) (accepts_set (fun _ => rfl) hI)⟩

/-- A worker whose publisher confirms each message in time, and that may run more often than there
are pending rows, ends well and with an empty run, and has then delivered what nothing
obstructed. -/
theorem confirmed_worker_completes (H : Digest) (w : OutboxWorker) (runs : List (OutboxRun F))
    (s : OutboxState F) (hworker : Scalar w.workerId) (hlease : 0 < w.leaseSeconds)
    (haccepted : ∀ r ∈ s.outbox.rows, OutboxAccepts H r) (hruns : ∀ run ∈ runs, w.Confirms run)
    (hclock : (runs.map OutboxRun.claimed).Pairwise (· ≤ ·))
    (hmany : (Outbox.metrics s.outbox).pending < runs.length) :
    ∃ counts, (workerLoop (w.runOnce H) runs s .zero).2 = .ok counts ∧ counts.empty = 1 ∧
      counts.exitCode = 0 ∧ ∃ last ∈ runs, ∀ id,
        id ∈ finishedIds (workerLoop (w.runOnce H) runs s .zero).1.outbox ↔
          id ∈ finishedIds s.outbox ∨
            Unobstructed (Earlier s.outbox) (dueIds s.outbox last.claimed) id := by
  have hdrainer : Drainer (w.runOnce H) OutboxState.outbox (OutboxRun.claimed : OutboxRun F → F) :=
    w.drainer H
  obtain ⟨finished, hloop⟩ := hdrainer.completes (fun run hrun => w.confirmed hworker hlease
    (hruns run hrun)) haccepted hmany .zero
  have hempty : RunCounts.empty { RunCounts.zero with
      finished := RunCounts.zero.finished + finished
      empty := RunCounts.zero.empty + 1 } ≠ 0 := by simp
  exact ⟨_, hloop, rfl, rfl, hdrainer.drainsExactly runs s _ hclock hloop hempty⟩

end Outbox

/-- The event of a new finding, before its delivery. -/
def undelivered : OutboxState Tick :=
  ⟨(governanceCore.run governanceStart (performed 0 analyst createF1)).db.governanceOutbox, Table.empty⟩

def promptWorker : OutboxWorker where
  workerId := lit "worker-1"
  nonblank := by decide

/-- A run whose message is confirmed at once. -/
def promptRun (d : Fin 10) (now : Tick) : OutboxRun Tick :=
  ⟨uuid d, fun message => .receipt message.messageId, now, now, now, now, now⟩

theorem confirmed_worker_completes_undelivered :
    ∃ counts, (workerLoop (promptWorker.runOnce sha256) [promptRun 1 1, promptRun 2 2] undelivered
        .zero).2 = .ok counts ∧ counts.empty = 1 ∧ counts.exitCode = 0 ∧
      ∃ last ∈ [promptRun 1 1, promptRun 2 2], ∀ id,
        id ∈ finishedIds (workerLoop (promptWorker.runOnce sha256) [promptRun 1 1, promptRun 2 2]
            undelivered .zero).1.outbox ↔
          id ∈ finishedIds undelivered.outbox ∨
            Unobstructed (Earlier undelivered.outbox) (dueIds undelivered.outbox last.claimed) id := by
  have haccepted : undelivered.outbox.rows.all (fun r => (fromItem sha256 r).toOption.isSome) = true := by
    decide +kernel
  refine confirmed_worker_completes sha256 promptWorker [promptRun 1 1, promptRun 2 2] undelivered
    (scalar_lit _) (by decide) (fun r hr => ?_) ?_ (by decide) (by decide +kernel)
  · have hsome := List.all_eq_true.mp haccepted r hr
    cases hmessage : fromItem sha256 r with
    | ok message => exact ⟨message, hmessage⟩
    | error e =>
      rw [hmessage] at hsome
      cases hsome
  · intro run hrun
    simp only [List.mem_cons, List.not_mem_nil, or_false] at hrun
    rcases hrun with rfl | rfl
    · exact ⟨fun _ => rfl, by decide⟩
    · exact ⟨fun _ => rfl, by decide⟩

end SentinelGRC.Delivery
