import SentinelGRC.Pipeline.Execution

/-!
One ledger record for one input hash. The search and the append take the file lock
separately, and the lease of a run is not renewed while it is executed, so two
executions can both search before either appends. Where no execution appends on the
strength of a search that an append has outdated, the ledger never holds two records.
-/

namespace SentinelGRC.Pipeline

open Python Json Store Transition
open Audit (ended_none)

variable {T F : Type} [Clock T] [PyFloat F]

/-! ### Searches that an append outdates -/

def Phase.isClaimed : Phase F → Bool
  | .claimed => true
  | _ => false

def Phase.isSearched : Phase F → Bool
  | .searched => true
  | _ => false

/-- An execution is about to append. -/
def Executions.appending (s : Executions T F) (i : ℕ) : Bool := (s.active i).any (·.phase.isSearched)

/-- The executions that searched the ledger before another one's latest append. -/
def markOutdated (outdated : ℕ → Bool) (s : Executions T F) (c : ExecutionCall T F)
    (_ : Option Answer) : ℕ → Bool :=
  match c with
  | .work i .find => if (s.active i).any (·.phase.isClaimed) then Function.update outdated i false else outdated
  | .work i (.append _ _) => if s.appending i then fun j => outdated j || j ≠ i else outdated
  | _ => outdated

/-- An execution that appends has searched the ledger as it is. -/
def UpToDate (s : Executions T F × (ℕ → Bool)) : ExecutionCall T F → Prop
  | .work i (.append _ _) => s.1.appending i = true → s.2 i = false
  | _ => True

instance (s : Executions T F × (ℕ → Bool)) : DecidablePred (UpToDate s) := fun c => by
  unfold UpToDate
  split <;> infer_instance

/-- At most one record, and none while somebody is about to append. -/
structure Recorded (q : Request F) (s : Executions T F × (ℕ → Bool)) : Prop where
  atMostOne : countRecords F q.inputHash s.1.stores.ledger ≤ 1
  searched : ∀ i, s.1.appending i = true → s.2 i = false →
    countRecords F q.inputHash s.1.stores.ledger = 0

omit [Clock T] [PyFloat F] in
theorem appending_update {s : Stores T} {active : ℕ → Option (Execution F)} {i j : ℕ}
    {e : Option (Execution F)} :
    Executions.appending ⟨s, Function.update active i e⟩ j =
      if j = i then e.any (·.phase.isSearched) else (active j).any (·.phase.isSearched) := by
  unfold Executions.appending
  simp only [Function.update_apply]
  split_ifs <;> rfl

variable {q : Request F}

omit [Clock T] in
/-- A step that leaves the ledger alone and brings nobody to an append keeps the record count. -/
theorem Recorded.of_ledger {s s' : Executions T F × (ℕ → Bool)} (h : Recorded q s)
    (hledger : s'.1.stores.ledger = s.1.stores.ledger)
    (hsearched : ∀ i, s'.1.appending i = true → s'.2 i = false →
      s.1.appending i = true ∧ s.2 i = false) : Recorded q s' := by
  constructor
  · rw [hledger]
    exact h.atMostOne
  · intro i hi hup
    obtain ⟨hi, hup⟩ := hsearched i hi hup
    rw [hledger]
    exact h.searched i hi hup

omit [Clock T] [PyFloat F] in
/-- A search is up to date again only when it is made anew. -/
theorem markOutdated_eq_false {outdated : ℕ → Bool} {s : Executions T F} {c : ExecutionCall T F}
    (answer : Option Answer) {j : ℕ} (h : markOutdated outdated s c answer j = false) :
    outdated j = false ∨ (s.active j).any (·.phase.isClaimed) = true := by
  unfold markOutdated at h
  split at h
  · split_ifs at h with hclaimed
    · rw [Function.update_apply] at h
      split_ifs at h with hj
      · subst hj
        exact .inr hclaimed
      · exact .inl h
    · exact .inl h
  · split_ifs at h
    · exact .inl (Bool.or_eq_false_iff.mp h).1
    · exact .inl h
  · exact .inl h

omit [Clock T] [PyFloat F] in
theorem not_claimed_of_appending {s : Executions T F} {j : ℕ} (h : s.appending j = true) :
    (s.active j).any (·.phase.isClaimed) = false := by
  unfold Executions.appending at h
  cases ha : s.active j with
  | none => rfl
  | some e =>
    rw [ha] at h
    obtain ⟨options, phase⟩ := e
    cases phase with
    | searched => rfl
    | _ => cases h

omit [Clock T] in
theorem Recorded.works {s : Executions T F} {outdated : ℕ → Bool} {i : ℕ} {e : Execution F}
    {e' : Option (Execution F)} {stores : Stores T} {step : ExecutionStep T F}
    {answer : Option Answer} (h : Recorded q (s, outdated)) (hactive : s.active i = some e)
    (hledger : stores.ledger = s.stores.ledger)
    (he : ∀ e₁, e' = some e₁ → e₁.phase.isSearched = true → e.phase.isSearched = true) :
    Recorded q (⟨stores, Function.update s.active i e'⟩,
      markOutdated outdated s (.work i step) answer) := by
  refine h.of_ledger hledger fun j hj hup => ?_
  have hsearched : s.appending j = true := by
    rw [appending_update] at hj
    split_ifs at hj with hij
    · subst hij
      rw [Executions.appending, hactive]
      cases he' : e' with
      | none =>
        rw [he'] at hj
        cases hj
      | some e₁ =>
        rw [he'] at hj
        exact he e₁ he' hj
    · exact hj
  refine ⟨hsearched, ?_⟩
  rcases markOutdated_eq_false answer hup with hup | hclaimed
  · exact hup
  · rw [not_claimed_of_appending hsearched] at hclaimed
    cases hclaimed

omit [Clock T] in
/-- After an append every other search is outdated. -/
theorem Recorded.appends {s : Executions T F} {outdated : ℕ → Bool} {i : ℕ} {e : Execution F}
    {results : List (Value F)} {recordedAt : UtcDatetime} {ledger : Audit.File} {record : Fields F}
    {answer : Option Answer} (h : Recorded q (s, outdated)) (hactive : s.active i = some e)
    (hphase : e.phase = .searched) (hup : outdated i = false)
    (happend : appendEvidenceAtomic sha256 s.stores.ledger q.posture (results.map Subtype.val)
      (some q.extra) recordedAt = .ok (ledger, record)) :
    Recorded q (⟨{ s.stores with ledger },
      Function.update s.active i (some { e with phase := .evidenced record })⟩,
      markOutdated outdated s (.work i (.append results recordedAt)) answer) := by
  have hi : s.appending i = true := by
    rw [Executions.appending, hactive, Option.any_some, hphase]
    rfl
  constructor
  · have hle : countRecords F q.inputHash ledger ≤ countRecords F q.inputHash s.stores.ledger + 1 :=
      countRecords_append_le happend
    rw [h.searched i hi hup] at hle
    exact hle
  · intro j hj hout
    simp only [markOutdated, if_pos hi, Bool.or_eq_false_iff, decide_eq_false_iff_not,
      not_not] at hout
    rw [appending_update, if_pos hout.2] at hj
    cases hj

/-- What one step preserves. -/
theorem recorded_next {s : Executions T F × (ℕ → Bool)} {c : ExecutionCall T F} (hC : UpToDate s c)
    (h : Recorded q s) : Recorded q (((executions T q).withHistory markOutdated).next s c) := by
  obtain ⟨s, outdated⟩ := s
  rw [Machine.withHistory_next]
  simp only
  have heffect := executions_effect q s c
  revert heffect
  generalize (executions T q).next s c = s'
  generalize (executions T q).answer s c = answer
  intro heffect
  cases heffect with
  | busy i options now hbusy => exact h.of_ledger rfl fun j hj hup => ⟨hj, hup⟩
  | absent i step hidle =>
    refine h.of_ledger rfl fun j hj hup => ⟨hj, ?_⟩
    rcases markOutdated_eq_false none hup with hup | hclaimed
    · exact hup
    · rw [not_claimed_of_appending hj] at hclaimed
      cases hclaimed
  | claims i options now hidle hclaim =>
    refine h.of_ledger rfl fun j hj hup => ⟨?_, hup⟩
    rw [appending_update] at hj
    split_ifs at hj with hij
    · cases hj
    · exact hj
  | refused i options now hidle hclaim => exact h.of_ledger rfl fun j hj hup => ⟨hj, hup⟩
  | works i step e stores e' answer hactive heffect =>
    cases heffect with
    | misses hphase hfind => exact ⟨h.atMostOne, fun _ _ _ => countRecords_of_none hfind⟩
    | appends results recordedAt ledger record hphase happend =>
      have hup : outdated i = false := hC (by
        rw [Executions.appending, hactive, Option.any_some, hphase]
        rfl)
      exact h.appends hactive hphase hup happend
    | stays => exact h.works hactive rfl fun e₁ he₁ hs => Option.some.inj he₁ ▸ hs
    | finds record hphase hfind => exact h.works hactive rfl fun e₁ he₁ hs => by cases he₁; cases hs
    | completes record hash now hphase hhash haudited =>
      exact h.works hactive rfl fun e₁ he₁ hs => by cases he₁; cases hs
    | returns record hash now hphase hhash haudited =>
      exact h.works hactive rfl fun e₁ he₁ => by cases he₁
    | audits now assetId ticketsCreated hash audit record hphase haudit =>
      exact h.works hactive rfl fun e₁ he₁ => by cases he₁
    | raises hdone => exact h.works hactive rfl fun e₁ he₁ hs => by cases he₁; cases hs
    | fails error now completed runs hphase hfail =>
      exact h.works hactive rfl fun e₁ he₁ => by cases he₁
    | drops error now completed hphase hfail =>
      exact h.works hactive rfl fun e₁ he₁ => by cases he₁
    | crashes => exact h.works hactive rfl fun e₁ he₁ => by cases he₁

/-! ### Every run -/

/-- In every run in which executions append on up-to-date searches only, the ledger holds
at most one record of the inputs. -/
theorem recorded_at_most_once (q : Request F) {s : Executions T F} (hidle : ∀ i, s.active i = none)
    (hledger : countRecords F q.inputHash s.stores.ledger ≤ 1) {calls : List (ExecutionCall T F)}
    (hcalls : ((executions T q).withHistory markOutdated).Along UpToDate (s, fun _ => false) calls) :
    countRecords F q.inputHash ((executions T q).run s calls).stores.ledger ≤ 1 := by
  have hinit : Recorded q (s, fun _ => false) := by
    refine ⟨hledger, fun i hi => ?_⟩
    rw [Executions.appending, hidle i] at hi
    cases hi
  have hrun := hcalls.run_invariant (fun _ _ => recorded_next) hinit
  have hcount := hrun.atMostOne
  rw [Machine.withHistory_run] at hcount
  exact hcount

/-! ### Two executions of one posture -/

section Example

/-- One execution records its evidence and is interrupted; another finds the record. -/
def recordAndFind : List (ExecutionCall ℤ Empty) :=
  [.start 0 runtimeOptions 0, .work 0 .find, .work 0 (.append [] noon), .work 0 .crash,
    .start 1 runtimeOptions 900, .work 1 .find, .work 1 (.complete 901)]

theorem recorded_at_most_once_found :
    countRecords Empty postureRequest.inputHash
      ((executions ℤ postureRequest).run emptyExecutions recordAndFind).stores.ledger ≤ 1 := by
  refine recorded_at_most_once postureRequest (fun _ => rfl) (Nat.zero_le _) ?_
  exact ⟨trivial, trivial, fun _ => rfl, trivial, trivial, trivial, trivial, trivial⟩

/-- The second execution takes the run over when the lease of the first has expired, and
searches before the first appends. -/
def overlapping : List (ExecutionCall ℤ Empty) :=
  [.start 0 runtimeOptions 0, .work 0 .find, .start 1 runtimeOptions 900, .work 1 .find]

/-- Two searches before the first append leave two records. -/
theorem recorded_twice : ¬ ∀ calls : List (ExecutionCall ℤ Empty),
    (calls.filterMap ExecutionCall.time?).Pairwise (· ≤ ·) →
      countRecords Empty postureRequest.inputHash
        ((executions ℤ postureRequest).run emptyExecutions calls).stores.ledger ≤ 1 := by
  intro h
  have hcount := h (overlapping ++ [.work 0 (.append [] noon), .work 1 (.append [] noon)]) (by decide)
  obtain ⟨ledger₁, record₁, h₁⟩ := @exists_append_posture none ⟨_, rfl⟩
  have hverify := postureRequest.verifyLedger h₁ ended_none
  obtain ⟨ledger₂, record₂, h₂⟩ := exists_append_posture hverify
  have hone := countRecords_append ended_none h₁ (postureRequest.hasInputHash h₁)
  have htwo := countRecords_append (ended_append h₁) h₂
    (postureRequest.hasInputHash h₂)
  generalize hs : (executions ℤ postureRequest).run emptyExecutions overlapping = s at *
  have hledger : s.stores.ledger = none := by rw [← hs]; rfl
  have hfirst : s.active 0 = some ⟨runtimeOptions, .searched⟩ := by rw [← hs]; rfl
  have hsecond : s.active 1 = some ⟨runtimeOptions, .searched⟩ := by rw [← hs]; rfl
  rw [Machine.run_append, hs, Machine.run_cons, Machine.run_cons, Machine.run_nil,
    next_append hfirst rfl (hledger ▸ h₁), next_append (by simpa using hsecond) rfl h₂] at hcount
  rw [htwo, hone] at hcount
  exact absurd hcount (by decide)

end Example

end SentinelGRC.Pipeline
