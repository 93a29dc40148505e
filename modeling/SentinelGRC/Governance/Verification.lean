import SentinelGRC.Governance.Runs

/-!
Verification. A verifier is compared with the implementer and the latest submitter of
evidence in the row read before the transaction. The rule it stands for is about every
action and every evidence of the finding, also those of earlier rounds.
-/

namespace SentinelGRC.Governance

open Python Store Transition

variable {F S : Type}

/-! ### Verifiers -/

/-- A verification about to commit, with the finding it read and the finding stored. -/
structure Verification (F : Type) where
  actor : ActorContext
  read : Finding F
  row : Finding F

/-- The verification that a phase commits. -/
def Phase.verification? (db : Db F) (actor : ActorContext) : Phase F → Option (Verification F)
  | .mutate (.verify _ _ read) =>
    match db.findings.find? read.findingId with
    | some row => if row.status = .pendingVerification then some ⟨actor, read, row⟩ else none
    | none => none
  | _ => none

/-- The verification that an action commits. -/
def Sys.verification? (s : Sys F S) (a : Action F) : Option (Verification F) :=
  match s.taken a with
  | some (p, _) => p.phase.verification? s.db p.actor
  | none => none

theorem verification?_eq {s : Sys F S} {a : Action F} {p : Pending F} {stamp : Stamp F}
    {passed : Bool} {notes : Text} {read row : Finding F} (htaken : s.taken a = some (p, stamp))
    (hphase : p.phase = .mutate (.verify passed notes read))
    (hfind : s.db.findings.find? read.findingId = some row)
    (hstatus : row.status = .pendingVerification) :
    s.verification? a = some ⟨p.actor, read, row⟩ := by
  simp [Sys.verification?, htaken, hphase, Phase.verification?, hfind, hstatus]

/-- What the check before the transaction misses does not concern the verifier: the columns
changed since the read, and the evidence of rounds before the latest. -/
structure Verification.Independent (x : Verification F) (db : Db F) : Prop where
  implementer : x.row.implementer ≠ x.read.implementer →
    x.row.implementer ≠ some x.actor.actorId
  evidenceSubmitter : x.row.evidenceSubmitter ≠ x.read.evidenceSubmitter →
    x.row.evidenceSubmitter ≠ some x.actor.actorId
  earlier : ∀ e ∈ db.governanceEvidence.rows, e.findingId = x.read.findingId →
    x.row.evidenceSubmitter ≠ some e.submittedBy → e.submittedBy ≠ x.actor.actorId

instance (x : Verification F) (db : Db F) : Decidable (x.Independent db) :=
  decidable_of_iff
    ((x.row.implementer ≠ x.read.implementer → x.row.implementer ≠ some x.actor.actorId) ∧
      (x.row.evidenceSubmitter ≠ x.read.evidenceSubmitter →
        x.row.evidenceSubmitter ≠ some x.actor.actorId) ∧
      ∀ e ∈ db.governanceEvidence.rows, e.findingId = x.read.findingId →
        x.row.evidenceSubmitter ≠ some e.submittedBy → e.submittedBy ≠ x.actor.actorId)
    ⟨fun h => ⟨h.1, h.2.1, h.2.2⟩, fun h => ⟨h.implementer, h.evidenceSubmitter, h.earlier⟩⟩

/-- The verification that an action commits, if any, is independent. -/
def IndependentVerifier (s : Sys F S) (a : Action F) : Prop :=
  ∀ x ∈ s.verification? a, x.Independent s.db

instance (s : Sys F S) (a : Action F) : Decidable (IndependentVerifier s a) := by
  unfold IndependentVerifier
  infer_instance

/-- A verifier that passes both checks implemented nothing and submitted no evidence. -/
theorem Verification.Independent.apart {x : Verification F} {db : Db F} (h : x.Independent db)
    (hchecked : x.read.implementer ≠ some x.actor.actorId ∧
      x.read.evidenceSubmitter ≠ some x.actor.actorId) :
    x.row.implementer ≠ some x.actor.actorId ∧
      ∀ e ∈ db.governanceEvidence.rows, e.findingId = x.read.findingId →
        e.submittedBy ≠ x.actor.actorId := by
  have hsubmitter : x.row.evidenceSubmitter ≠ some x.actor.actorId := by
    intro hsame
    exact h.evidenceSubmitter (fun heq => hchecked.2 (heq.symm.trans hsame)) hsame
  refine ⟨?_, ?_⟩
  · intro hsame
    exact h.implementer (fun heq => hchecked.1 (heq.symm.trans hsame)) hsame
  · intro e he hkey hsame
    exact h.earlier e he hkey (hsame ▸ hsubmitter) hsame

/-! ### Implementers -/

/-- The statuses after an action has started. -/
def Status.actionStarted : Status → Bool
  | .inProgress | .pendingVerification | .verified | .closed => true
  | _ => false

/-- Once an action has started, the implementer of a finding stays. -/
theorem RowEffect.implementer {p : Pending F} {stamp : Stamp F} {k : Text} {row row' : Finding F}
    (h : RowEffect p stamp k (some row) row') (hstarted : row.status.actionStarted = true) :
    row'.implementer = row.implementer ∧ row'.status.actionStarted = true := by
  cases h with
  | same => exact ⟨rfl, hstarted⟩
  | reassessed args q phase key => exact ⟨rfl, hstarted⟩
  | submitted args stored finding q phase key status => exact ⟨rfl, rfl⟩
  | mutated change q phase key status =>
    cases change with
    | close reason finding => exact ⟨rfl, rfl⟩
    | verify passed notes finding => cases passed <;> exact ⟨rfl, rfl⟩
    | assess likelihood impact finding =>
      have hopened : row.status = .opened ∨ row.status = .rejected := by
        simpa [Change.mutation] using status
      rcases hopened with h | h <;> rw [h] at hstarted <;> cases hstarted
    | propose findingId treatmentType reason actionOwner dueDate =>
      rw [List.mem_singleton.mp status] at hstarted
      cases hstarted
    | approve decision reason finding =>
      rw [List.mem_singleton.mp status] at hstarted
      cases hstarted
    | start implementer finding =>
      rw [List.mem_singleton.mp status] at hstarted
      cases hstarted

/-- Action items and verifications belong to findings whose action has started, and no verifier
of a finding is its implementer. -/
structure Implemented (db : Db F) : Prop where
  items : ∀ a ∈ db.actionItems.rows, ∃ row, db.findings.find? a.findingId = some row ∧
    row.implementer = some a.implementer ∧ row.status.actionStarted = true
  verified : ∀ v ∈ db.verificationRecords.rows, ∃ row, db.findings.find? v.findingId = some row ∧
    row.status.actionStarted = true
  apart : ∀ v ∈ db.verificationRecords.rows, ∀ a ∈ db.actionItems.rows,
    a.findingId = v.findingId → v.verifierId ≠ a.implementer

theorem implemented_empty : Implemented (Db.empty : Db F) where
  items := fun a ha => by cases ha
  verified := fun v hv => by cases hv
  apart := fun v hv => by cases hv

variable [PyFloat F] {H : Digest} {store : EvidenceStore S}

theorem implemented_next {s : Sys F S} {a : Action F} {p : Pending F} {stamp : Stamp F}
    {db' : Db F} (hverifier : IndependentVerifier s a) (htaken : s.taken a = some (p, stamp))
    (hchecked : p.Checked) (heffect : Effect H s.db p stamp db') (h : Implemented s.db) :
    Implemented db' := by
  obtain ⟨action, evidence, verification, hrecords, haction, hverification⟩ := heffect.records
  have hitems : ∀ i ∈ s.db.actionItems.rows, ∃ row, db'.findings.find? i.findingId = some row ∧
      row.implementer = some i.implementer ∧ row.status.actionStarted = true := by
    intro i hi
    obtain ⟨row, hrow, himplementer, hstarted⟩ := h.items i hi
    obtain ⟨row', hrow', hstep⟩ := heffect.row_kept hrow
    obtain ⟨hkept, hstarted'⟩ := hstep.implementer hstarted
    exact ⟨row', hrow', hkept.trans himplementer, hstarted'⟩
  have hverified : ∀ v ∈ s.db.verificationRecords.rows, ∃ row,
      db'.findings.find? v.findingId = some row ∧ row.status.actionStarted = true := by
    intro v hv
    obtain ⟨row, hrow, hstarted⟩ := h.verified v hv
    obtain ⟨row', hrow', hstep⟩ := heffect.row_kept hrow
    exact ⟨row', hrow', (hstep.implementer hstarted).2⟩
  refine ⟨?_, ?_, ?_⟩
  · intro i hi
    rw [hrecords.actionItems, List.mem_append, Option.mem_toList] at hi
    rcases hi with hi | hi
    · exact hitems i hi
    · obtain ⟨implementer, finding, row, -, -, -, hrow', hkey, himplementer⟩ := haction i hi
      refine ⟨_, hkey ▸ hrow', ?_, rfl⟩
      rw [himplementer]
      rfl
  · intro v hv
    rw [hrecords.verificationRecords, List.mem_append, Option.mem_toList] at hv
    rcases hv with hv | hv
    · exact hverified v hv
    · obtain ⟨passed, notes, finding, row, -, hfind, hstatus, hkey, -⟩ := hverification v hv
      obtain ⟨row', hrow', hstep⟩ := heffect.row_kept hfind
      exact ⟨row', hkey ▸ hrow', (hstep.implementer (by rw [hstatus]; rfl)).2⟩
  · intro v hv i hi hkey
    rw [hrecords.verificationRecords, List.mem_append, Option.mem_toList] at hv
    rw [hrecords.actionItems, List.mem_append, Option.mem_toList] at hi
    rcases hv with hv | hv
    · rcases hi with hi | hi
      · exact h.apart v hv i hi hkey
      · -- an action starts on a finding that was not verified before
        obtain ⟨implementer, finding, row, -, hfind, hstatus, -, hkey', -⟩ := haction i hi
        obtain ⟨q, hq, hstarted⟩ := h.verified v hv
        rw [← hkey, hkey', hfind] at hq
        cases hq
        rw [hstatus] at hstarted
        cases hstarted
    · obtain ⟨passed, notes, finding, row, hphase, hfind, hstatus, hkey', hactor⟩ :=
        hverification v hv
      have hindependent := hverifier _ (verification?_eq htaken hphase hfind hstatus)
      rw [Pending.Checked, hphase] at hchecked
      rcases hi with hi | hi
      · obtain ⟨q, hq, himplementer, -⟩ := h.items i hi
        rw [hkey, hkey', hfind] at hq
        cases hq
        rw [hactor]
        intro hsame
        exact (hindependent.apart hchecked).1 (himplementer.trans (congrArg some hsame.symm))
      · obtain ⟨implementer, finding', row', hphase', -⟩ := haction i hi
        rw [hphase] at hphase'
        cases hphase'

/-- Evidence stays, and a verification added while it is there is not its submitter's. -/
theorem submitter_next {s : Sys F S} {a : Action F} {p : Pending F} {stamp : Stamp F} {db' : Db F}
    {e : Evidence F} {v : VerificationRecord} (hkey : e.findingId = v.findingId)
    (hverifier : IndependentVerifier s a) (htaken : s.taken a = some (p, stamp))
    (hchecked : p.Checked) (heffect : Effect H s.db p stamp db')
    (h : e ∈ s.db.governanceEvidence.rows ∧
      (v ∈ s.db.verificationRecords.rows → v.verifierId ≠ e.submittedBy)) :
    e ∈ db'.governanceEvidence.rows ∧
      (v ∈ db'.verificationRecords.rows → v.verifierId ≠ e.submittedBy) := by
  obtain ⟨action, evidence, verification, hrecords, -, hverification⟩ := heffect.records
  refine ⟨?_, ?_⟩
  · rw [hrecords.governanceEvidence]
    exact List.mem_append_left _ h.1
  · intro hv
    rw [hrecords.verificationRecords, List.mem_append, Option.mem_toList] at hv
    rcases hv with hv | hv
    · exact h.2 hv
    · obtain ⟨passed, notes, finding, row, hphase, hfind, hstatus, hkey', hactor⟩ :=
        hverification v hv
      have hindependent := hverifier _ (verification?_eq htaken hphase hfind hstatus)
      rw [Pending.Checked, hphase] at hchecked
      rw [hactor]
      exact ((hindependent.apart hchecked).2 e h.1 (hkey.trans hkey')).symm

/-! ### Runs -/

/-- No verifier submitted evidence of the finding before, and none implemented it. -/
structure VerifiedIndependently (M : Machine (Sys F S) (Action F) (Answer F)) (start : Sys F S)
    (actions : List (Action F)) : Prop where
  submitters : ∀ v ∈ (M.run start actions).db.verificationRecords.rows, ∀ earlier later,
    actions = earlier ++ later → v ∉ (M.run start earlier).db.verificationRecords.rows →
    ∀ e ∈ (M.run start earlier).db.governanceEvidence.rows, e.findingId = v.findingId →
      v.verifierId ≠ e.submittedBy
  implementers : ∀ v ∈ (M.run start actions).db.verificationRecords.rows,
    ∀ a ∈ (M.run start actions).db.actionItems.rows, a.findingId = v.findingId →
      v.verifierId ≠ a.implementer

/-- In every run whose verifications are independent also where the check does not look, they
are independent of the whole history. -/
theorem verified_independently (H : Digest) (store : EvidenceStore S) (objects : S)
    (actions : List (Action F))
    (hverifier : (governance H store).Along IndependentVerifier (Sys.init objects) actions) :
    VerifiedIndependently (governance H store) (Sys.init objects) actions where
  submitters := by
    rintro v hv earlier later rfl hfresh e he hkey
    have hlater := (Machine.along_append.mp hverifier).2
    rw [Machine.run_append] at hv
    have hsound : ((governance H store).run (Sys.init objects) earlier).Sound :=
      Machine.run_invariant (governance H store) (I := Sys.Sound) (fun s a hs => next_sound hs a)
        (sound_init objects) earlier
    refine (hlater.run_invariant (I := fun s => s.Sound ∧ (e ∈ s.db.governanceEvidence.rows ∧
      (v ∈ s.db.verificationRecords.rows → v.verifierId ≠ e.submittedBy))) ?_
      ⟨hsound, he, fun h => absurd h hfresh⟩).2.2 hv
    intro s a hC hs
    refine next_keeps (C := IndependentVerifier) (I := fun db => e ∈ db.governanceEvidence.rows ∧
      (v ∈ db.verificationRecords.rows → v.verifierId ≠ e.submittedBy)) ?_ s a hC hs
    intro s a p stamp db' hC htaken hchecked heffect hI
    exact submitter_next hkey hC htaken hchecked heffect hI
  implementers := by
    refine (hverifier.run_invariant (I := fun s => s.Sound ∧ Implemented s.db) ?_
      ⟨sound_init objects, implemented_empty⟩).2.apart
    intro s a hC hs
    refine next_keeps (C := IndependentVerifier) ?_ s a hC hs
    intro s a p stamp db' hC htaken hchecked heffect hI
    exact implemented_next hC htaken hchecked heffect hI

/-- A finding up to the evidence that one analyst submits for mitigation. -/
def mitigated : List (Action Tick) :=
  performed 0 analyst createF1 ++ performed 1 analyst assessF1 ++
    performed 2 analyst (proposeF1 (lit "mitigate")) ++
    performed 3 approver (approveF1 (lit "approved")) ++
    performed 4 analyst (.startAction (lit "F-1") (lit "engineer-1")) ++
    submittedEvidence 5 analyst

/-- One round of evidence, verified by the approver. -/
theorem verified_independently_once :
    VerifiedIndependently governanceCore governanceStart
      (mitigated ++ performed 6 approver (verifyF1 true)) :=
  verified_independently sha256 (memoryEvidenceStore sha256) Table.empty _ (by decide +kernel)

/-- The first evidence fails, and another analyst submits the next one. -/
def resubmitted : List (Action Tick) :=
  mitigated ++ performed 6 approver (verifyF1 false) ++ submittedEvidence 7 secondAnalyst

theorem resubmitted_run :
    ((governanceCore.run governanceStart resubmitted).db.governanceEvidence.rows.map fun e =>
      (e.findingId, e.submittedBy)) =
        [(lit "F-1", analyst.actorId), (lit "F-1", secondAnalyst.actorId)] ∧
    ((governanceCore.run governanceStart resubmitted).db.verificationRecords.rows.map fun v =>
      v.verifierId) = [approver.actorId] ∧
    ((governanceCore.run governanceStart
      (resubmitted ++ performed 8 analyst (verifyF1 true))).db.verificationRecords.rows.map fun v =>
        (v.findingId, v.verifierId)) =
          [(lit "F-1", approver.actorId), (lit "F-1", analyst.actorId)] := by decide +kernel

/-- Then the analyst of the first evidence verifies the finding. -/
theorem verified_by_submitter :
    ¬ VerifiedIndependently governanceCore governanceStart
      (resubmitted ++ performed 8 analyst (verifyF1 true)) := by
  intro h
  obtain ⟨hevidence, hbefore, hafter⟩ := resubmitted_run
  obtain ⟨e, he, hpair⟩ := List.mem_map.mp
    (hevidence ▸ List.mem_cons_self : (lit "F-1", analyst.actorId) ∈ _)
  obtain ⟨hekey, hsubmitter⟩ := Prod.mk.inj hpair
  obtain ⟨v, hv, hpair⟩ := List.mem_map.mp
    (hafter ▸ List.mem_cons_of_mem _ List.mem_cons_self : (lit "F-1", analyst.actorId) ∈ _)
  obtain ⟨hvkey, hverifier⟩ := Prod.mk.inj hpair
  refine h.submitters v hv resubmitted _ rfl ?_ e he (hekey.trans hvkey.symm)
    (hverifier.trans hsubmitter.symm)
  intro hmem
  have hold := hbefore ▸ List.mem_map_of_mem hmem
  rw [hverifier] at hold
  exact absurd hold (by decide)

end SentinelGRC.Governance
