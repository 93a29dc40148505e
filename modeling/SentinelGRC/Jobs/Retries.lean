import SentinelGRC.Jobs.Fencing

/-!
How often a job is claimed. Every claim counts as an attempt, but only `fail` compares
the attempts with their limit, so a job that is failed leaves the queue in time, while
one whose lease expires is claimed again whatever its attempts. Claims beyond the limit
are therefore paid for by expired leases, one each.
-/

namespace SentinelGRC.Jobs

open Python Store Transition

variable {T : Type} [Clock T]

/-- What the answers of `claim` say about a job. -/
@[ext] structure Claims where
  total : ℕ
  /-- Those that found the row running, under a lease that had expired. -/
  takeovers : ℕ
  deriving DecidableEq

abbrev ClaimCounts := ℕ → Claims

def ClaimCounts.zero : ClaimCounts := fun _ => ⟨0, 0⟩

/-- The counts after one more call, told from its answer: a claim returns the row as it
was found, with its attempts counted up. -/
def ClaimCounts.record (h : ClaimCounts) (answer : QueueAnswer T) : ClaimCounts :=
  match answer with
  | .claimed (.ok (some job)) => Function.update h job.jobId
      ⟨(h job.jobId).total + 1,
        (h job.jobId).takeovers + if job.status = .running then 1 else 0⟩
  | _ => h

/-- A call that fails a job does it with no higher limit on the attempts. -/
def Limits (maxAttempts : ℕ) : QueueOp T → Prop
  | .fail _ _ _ attempts _ _ => attempts ≤ maxAttempts
  | _ => True

/-- What the table tells about the claims of each job. -/
structure Counted (maxAttempts : ℕ) (q : Queue T) (h : ClaimCounts) : Prop where
  absent : ∀ j, q.find? j = none → h j = ⟨0, 0⟩
  attempts : ∀ j r, q.find? j = some r → r.attempts = (h j).total
  pending : ∀ j r, q.find? j = some r → r.status = .pending → (h j).total < maxAttempts
  bounded : ∀ j, (h j).total ≤ maxAttempts + (h j).takeovers

variable {maxAttempts : ℕ} {q : Queue T} {h : ClaimCounts}

/-! ### One call -/

/-- A failed job goes back to the queue only below the limit. -/
theorem fail_eq_pending {j : ℕ} {w e : Text} {attempts delay : ℤ} {now : T}
    (hfail : (q.fail j w e attempts delay now).2 = .ok .pending) :
    ∃ r, q.find? j = some r ∧ (r.attempts : ℤ) < attempts := by
  unfold Queue.fail at hfail
  by_cases hv : blank w ∨ attempts < 1 ∨ delay < 0
  · rw [if_pos hv] at hfail
    cases hfail
  rw [if_neg hv] at hfail
  cases hr : q.find? j with
  | none =>
    rw [hr] at hfail
    cases hfail
  | some r =>
    rw [hr] at hfail
    simp only at hfail
    by_cases hl : Queue.leasedTo w now r = true
    · rw [if_neg (not_not.mpr hl)] at hfail
      by_cases hs : Scalar (e.take 2000)
      · rw [if_neg (not_not.mpr hs)] at hfail
        have hanswer : (if decide (attempts ≤ (r.attempts : ℤ)) = true then Queue.Failed.dead
          else .pending) = .pending := Except.ok.inj hfail
        refine ⟨r, rfl, ?_⟩
        by_contra hlimit
        rw [if_pos (by simpa using hlimit)] at hanswer
        cases hanswer
      · rw [if_pos hs] at hfail
        cases hfail
    · rw [if_pos hl] at hfail
      cases hfail

omit [Clock T] in
/-- A row is written that keeps its attempts, and is not pending unless below the limit. -/
theorem Counted.set (hs : Counted maxAttempts q h) {k : ℕ} {r : Job T} (hr : q.find? k = some r)
    {f : Job T → Job T} (hf : ∀ r, (f r).jobId = r.jobId) (hkeep : (f r).attempts = r.attempts)
    (hpending : (f r).status = .pending → r.attempts < maxAttempts) :
    Counted maxAttempts (q.set k f hf) h where
  absent j hj := by
    rw [Queue.find?_set, Option.map_eq_none_iff] at hj
    exact hs.absent j hj
  attempts j p hp := by
    rw [Queue.find?_set, Option.map_eq_some_iff] at hp
    obtain ⟨p, hfound, rfl⟩ := hp
    split_ifs with hj
    · subst hj
      obtain rfl := Option.some.inj (hr.symm.trans hfound)
      rw [hkeep]
      exact hs.attempts j r hr
    · exact hs.attempts j p hfound
  pending j p hp hstatus := by
    rw [Queue.find?_set, Option.map_eq_some_iff] at hp
    obtain ⟨p, hfound, rfl⟩ := hp
    split_ifs at hstatus with hj
    · subst hj
      obtain rfl := Option.some.inj (hr.symm.trans hfound)
      rw [← hs.attempts j r hr]
      exact hpending hstatus
    · exact hs.pending j p hfound hstatus
  bounded := hs.bounded

/-- A claim of a pending job is one of the first `max_attempts`; any other takes over an
expired lease. -/
theorem Counted.claim (hs : Counted maxAttempts q h) {w : Text} {r : Job T} {until' now : T}
    (hr : q.find? r.jobId = some r) (hc : Queue.claimable now r = true) :
    Counted maxAttempts (q.set r.jobId (Queue.take w until') (Queue.jobId_take _ _))
      (h.record (T := T) (.claimed (.ok (some { r with attempts := r.attempts + 1 })))) := by
  have hattempts := hs.attempts r.jobId r hr
  have hrecord : h.record (T := T) (.claimed (.ok (some { r with attempts := r.attempts + 1 }))) =
      Function.update h r.jobId ⟨(h r.jobId).total + 1,
        (h r.jobId).takeovers + if r.status = .running then 1 else 0⟩ := rfl
  rw [hrecord]
  constructor
  · intro j hj
    rw [Queue.find?_set, Option.map_eq_none_iff] at hj
    have hne : j ≠ r.jobId := by
      rintro rfl
      rw [hr] at hj
      cases hj
    rw [Function.update_of_ne hne]
    exact hs.absent j hj
  · intro j p hp
    rw [Queue.find?_set, Option.map_eq_some_iff] at hp
    obtain ⟨p, hfound, rfl⟩ := hp
    by_cases hj : j = r.jobId
    · subst hj
      obtain rfl := Option.some.inj (hr.symm.trans hfound)
      rw [if_pos rfl, Function.update_self, ← hattempts]
      rfl
    · rw [if_neg hj, Function.update_of_ne hj]
      exact hs.attempts j p hfound
  · intro j p hp hstatus
    rw [Queue.find?_set, Option.map_eq_some_iff] at hp
    obtain ⟨p, hfound, rfl⟩ := hp
    by_cases hj : j = r.jobId
    · rw [if_pos hj] at hstatus
      cases hstatus
    · rw [if_neg hj] at hstatus
      rw [Function.update_of_ne hj]
      exact hs.pending j p hfound hstatus
  · intro j
    by_cases hj : j = r.jobId
    · subst hj
      rw [Function.update_self]
      have hbound := hs.bounded r.jobId
      rcases claimable_cases hc with hpending | hrunning
      · have hbelow := hs.pending _ r hr hpending
        simp only
        omega
      · simp only [hrunning, ↓reduceIte]
        omega
    · rw [Function.update_of_ne hj]
      exact hs.bounded j

/-- What one call preserves. -/
theorem counted_next (hlimit : 1 ≤ maxAttempts) {op : QueueOp T} (hop : Limits maxAttempts op)
    (hs : Counted maxAttempts q h) : Counted maxAttempts ((jobQueue T).next q op)
      (h.record ((jobQueue T).answer q op)) := by
  have heffect := jobQueue_effect q op
  have hfail : ∀ j w e attempts delay now, op = .fail j w e attempts delay now →
      (jobQueue T).answer q op = .failed (.ok .pending) →
        ∃ r, q.find? j = some r ∧ (r.attempts : ℤ) < attempts := by
    rintro j w e attempts delay now rfl hanswer
    exact fail_eq_pending (QueueAnswer.failed.inj hanswer)
  generalize (jobQueue T).answer q op = a at heffect hfail ⊢
  generalize (jobQueue T).next q op = q' at heffect ⊢
  cases heffect with
  | idle hidle => cases hidle <;> exact hs
  | enqueued path now =>
    constructor
    · intro j hj
      rw [Queue.find?_insert] at hj
      split_ifs at hj
      exact hs.absent j hj
    · intro j r hr
      rw [Queue.find?_insert] at hr
      split_ifs at hr with hj
      · obtain rfl := Option.some.inj hr
        change 0 = (h j).total
        rw [hs.absent j (hj ▸ q.find?_sequence)]
      · exact hs.attempts j r hr
    · intro j r hr hstatus
      rw [Queue.find?_insert] at hr
      split_ifs at hr with hj
      · change (h j).total < maxAttempts
        rw [hs.absent j (hj ▸ q.find?_sequence)]
        exact hlimit
      · exact hs.pending j r hr hstatus
    · exact hs.bounded
  | claimed w lease now r hr hc => exact hs.claim hr hc
  | renewed j w lease now r hr hl =>
    refine hs.set hr (Queue.jobId_renewed _) rfl fun hstatus => ?_
    rw [show (Queue.renewed _ r).status = r.status from rfl, holder_of_leasedTo hl] at hstatus
    cases hstatus
  | completed j w now r hr hl =>
    refine hs.set hr Queue.jobId_completed rfl fun hstatus => ?_
    cases hstatus
  | failed j w e attempts delay now r dead until' error hr hl =>
    refine hs.set hr (Queue.jobId_failed _ _ _) rfl fun hstatus => ?_
    cases dead with
    | true => cases hstatus
    | false =>
      obtain ⟨r', hr', hbelow⟩ := hfail j w e attempts delay now rfl rfl
      obtain rfl := Option.some.inj (hr.symm.trans hr')
      have hop : attempts ≤ maxAttempts := hop
      omega

omit [Clock T] in
theorem counted_empty : Counted maxAttempts (Queue.empty : Queue T) ClaimCounts.zero where
  absent _ _ := rfl
  attempts j r hr := by cases hr
  pending j r hr := by cases hr
  bounded _ := Nat.zero_le _

end SentinelGRC.Jobs
