import SentinelGRC.Governance.Runs

/-!
Approvals. An approval decision reads the finding, and commits later against whatever
the finding is by then; only its status is looked at again. The treatment that was
proposed and the owner of the risk can be others than those it read.
-/

namespace SentinelGRC.Governance

open Python Store Transition

variable {F S : Type}

/-- An approval decision about to commit, with the finding it read and the finding stored. -/
structure Approval (F : Type) where
  actor : ActorContext
  decision : Decision
  read : Finding F
  row : Finding F

/-- The approval decision that a phase commits. -/
def Phase.approval? (db : Db F) (actor : ActorContext) : Phase F → Option (Approval F)
  | .mutate (.approve decision _ read) =>
    match db.findings.find? read.findingId with
    | some row => if row.status = .pendingApproval then some ⟨actor, decision, read, row⟩ else none
    | none => none
  | _ => none

/-- The approval decision that an action commits. -/
def Sys.approval? (s : Sys F S) (a : Action F) : Option (Approval F) :=
  match s.taken a with
  | some (p, _) => p.phase.approval? s.db p.actor
  | none => none

theorem approval?_eq {s : Sys F S} {a : Action F} {p : Pending F} {stamp : Stamp F}
    {decision : Decision} {reason : Text} {read row : Finding F}
    (htaken : s.taken a = some (p, stamp)) (hphase : p.phase = .mutate (.approve decision reason read))
    (hfind : s.db.findings.find? read.findingId = some row) (hstatus : row.status = .pendingApproval) :
    s.approval? a = some ⟨p.actor, decision, read, row⟩ := by
  simp [Sys.approval?, htaken, hphase, Phase.approval?, hfind, hstatus]

/-! ### Risk acceptance -/

/-- An approval finds the treatment that it read: acceptance in both, or in neither. -/
def TreatmentAsRead (s : Sys F S) (a : Action F) : Prop :=
  ∀ x ∈ s.approval? a, x.decision = .approved →
    (x.read.treatmentType = some .accept ↔ x.row.treatmentType = some .accept)

instance (s : Sys F S) (a : Action F) : Decidable (TreatmentAsRead s a) := by
  unfold TreatmentAsRead
  infer_instance

/-- Between two databases findings are accepted, approved, and closed once accepted, as the
treatment stored with them says. -/
structure AcceptanceMatches (db db' : Db F) : Prop where
  accepted : ∀ k row, db'.findings.find? k = some row → row.status = .accepted →
    (∀ q, db.findings.find? k = some q → q.status ≠ .accepted) → row.treatmentType = some .accept
  approved : ∀ k row, db'.findings.find? k = some row → row.status = .approved →
    (∀ q, db.findings.find? k = some q → q.status ≠ .approved) → row.treatmentType ≠ some .accept
  closed : ∀ k q row, db.findings.find? k = some q → db'.findings.find? k = some row →
    q.status = .accepted → row.status = .closed → row.treatmentType = some .accept

/-- Accepted findings have acceptance as their treatment. -/
def AcceptedByTreatment (db : Db F) : Prop :=
  ∀ k row, db.findings.find? k = some row → row.status = .accepted → row.treatmentType = some .accept

theorem treatmentApprovalStatus_eq_accepted {decision : Decision} {treatment : Option Treatment} :
    treatmentApprovalStatus decision treatment = .accepted ↔
      decision = .approved ∧ treatment = some .accept := by
  rcases decision with _ | _ <;> rcases treatment with _ | _ | _ | _ | _ <;>
    simp [treatmentApprovalStatus]

theorem treatmentApprovalStatus_eq_approved {decision : Decision} {treatment : Option Treatment} :
    treatmentApprovalStatus decision treatment = .approved ↔
      decision = .approved ∧ treatment ≠ some .accept := by
  rcases decision with _ | _ <;> rcases treatment with _ | _ | _ | _ | _ <;>
    simp [treatmentApprovalStatus]

/-- A finding that comes to be accepted or approved did so by an approval decision. -/
theorem RowEffect.decided {p : Pending F} {stamp : Stamp F} {k : Text} {row : Finding F}
    {before : Option (Finding F)} (h : RowEffect p stamp k before row)
    (hstatus : row.status = .accepted ∨ row.status = .approved) :
    (∃ q, before = some q ∧ q.status = row.status ∧ q.treatmentType = row.treatmentType) ∨
    ∃ decision reason read q, p.phase = .mutate (.approve decision reason read) ∧
      read.findingId = k ∧ before = some q ∧ q.status = .pendingApproval ∧
      q.treatmentType = row.treatmentType ∧
      row.status = treatmentApprovalStatus decision read.treatmentType := by
  cases h with
  | same => exact .inl ⟨row, rfl, rfl, rfl⟩
  | created args upsert phase key => rcases hstatus with h | h <;> cases h
  | reassessed args q phase key => exact .inl ⟨q, rfl, rfl, rfl⟩
  | mutated change q phase key status =>
    cases change with
    | assess likelihood impact finding => rcases hstatus with h | h <;> cases h
    | propose findingId treatmentType reason actionOwner dueDate =>
      rcases hstatus with h | h <;> cases h
    | approve decision reason read =>
      exact .inr ⟨decision, reason, read, q, phase, key, rfl, by simpa [Change.mutation] using status,
        rfl, rfl⟩
    | start implementer finding => rcases hstatus with h | h <;> cases h
    | verify passed notes finding => cases passed <;> rcases hstatus with h | h <;> cases h
    | close reason finding => rcases hstatus with h | h <;> cases h
  | submitted args stored finding q phase key status => rcases hstatus with h | h <;> cases h

variable [PyFloat F] {H : Digest} {store : EvidenceStore S}

theorem acceptedByTreatment_next {s : Sys F S} {a : Action F} {p : Pending F} {stamp : Stamp F}
    {db' : Db F} (hread : TreatmentAsRead s a) (htaken : s.taken a = some (p, stamp))
    (heffect : Effect H s.db p stamp db') (h : AcceptedByTreatment s.db) :
    AcceptedByTreatment db' := by
  intro k row hrow hstatus
  rcases (heffect.row hrow).decided (.inl hstatus) with ⟨q, hq, hsame, htreatment⟩ |
    ⟨decision, reason, read, q, hphase, rfl, hq, hpending, htreatment, hnew⟩
  · rw [← htreatment]
    exact h k q hq (hsame.trans hstatus)
  · have hdecided := treatmentApprovalStatus_eq_accepted.mp (hnew.symm.trans hstatus)
    rw [← htreatment]
    exact (hread _ (approval?_eq htaken hphase hq hpending) hdecided.1).mp hdecided.2

theorem acceptanceMatches_next {s : Sys F S} {a : Action F} {p : Pending F} {stamp : Stamp F}
    {db' : Db F} (hread : TreatmentAsRead s a) (htaken : s.taken a = some (p, stamp))
    (heffect : Effect H s.db p stamp db') (h : AcceptedByTreatment s.db) :
    AcceptanceMatches s.db db' where
  accepted := fun k row hrow hstatus _ =>
    acceptedByTreatment_next hread htaken heffect h k row hrow hstatus
  approved := by
    intro k row hrow hstatus hbefore
    rcases (heffect.row hrow).decided (.inr hstatus) with ⟨q, hq, hsame, -⟩ |
      ⟨decision, reason, read, q, hphase, rfl, hq, hpending, htreatment, hnew⟩
    · exact absurd (hsame.trans hstatus) (hbefore q hq)
    · have hdecided := treatmentApprovalStatus_eq_approved.mp (hnew.symm.trans hstatus)
      rw [← htreatment]
      exact fun haccept => hdecided.2
        ((hread _ (approval?_eq htaken hphase hq hpending) hdecided.1).mpr haccept)
  closed := by
    intro k q row hq hrow haccepted hclosed
    have htreatment := h k q hq haccepted
    have hrowEffect := heffect.row hrow
    rw [hq] at hrowEffect
    cases hrowEffect with
    | same => exact htreatment
    | reassessed args q phase key => exact htreatment
    | mutated change q phase key status =>
      cases change with
      | close reason finding => exact htreatment
      | propose findingId treatmentType reason actionOwner dueDate => cases hclosed
      | _ => exact htreatment
    | submitted args stored finding q phase key status => cases hclosed

/-- In every run whose approvals find the treatment that they read, risk is accepted exactly
where acceptance is the treatment stored. -/
theorem acceptance_matches (H : Digest) (store : EvidenceStore S) (objects : S)
    (actions : List (Action F))
    (hread : (governance H store).Along TreatmentAsRead (Sys.init objects) actions) :
    (governance H store).Along
      (fun s a => AcceptanceMatches s.db ((governance H store).next s a).db)
      (Sys.init objects) actions := by
  refine hread.imp_of_invariant (I := fun s => s.Sound ∧ AcceptedByTreatment s.db) ?_ ?_
    ⟨sound_init objects, fun k row hrow => by cases hrow⟩
  · intro s a hC hs
    refine next_keeps (C := TreatmentAsRead) ?_ s a hC hs
    intro s a p stamp db' hC htaken _ heffect hI
    exact acceptedByTreatment_next hC htaken heffect hI
  · intro s a hC hs
    rcases next_effect H store s a with h | ⟨p, stamp, htaken, heffect⟩
    · rw [h]
      exact
        { accepted := fun k row hrow hstatus hbefore => absurd hstatus (hbefore row hrow)
          approved := fun k row hrow hstatus hbefore => absurd hstatus (hbefore row hrow)
          closed := by
            intro k q row hq hrow haccepted hclosed
            rw [hq] at hrow
            cases hrow
            rw [haccepted] at hclosed
            cases hclosed }
    · exact acceptanceMatches_next hC htaken heffect hs.2

/-- A finding is assessed, acceptance of its risk is proposed and approved. -/
theorem acceptance_matches_plain :
    governanceCore.Along (fun s a => AcceptanceMatches s.db (governanceCore.next s a).db)
      governanceStart
      (performed 0 analyst createF1 ++ performed 1 analyst assessF1 ++
        performed 2 analyst (proposeF1 (lit "accept")) ++
        performed 3 approver (approveF1 (lit "approved"))) :=
  acceptance_matches sha256 (memoryEvidenceStore sha256) Table.empty _ (by decide +kernel)

/-- An approver reads a proposed acceptance; it is rejected and mitigation proposed instead. -/
def reproposed : List (Action Tick) :=
  performed 0 analyst createF1 ++ performed 1 analyst assessF1 ++
    performed 2 analyst (proposeF1 (lit "accept")) ++
    [.call approver (approveF1 (lit "approved")) (uuid 3)] ++
    performed 4 committee (approveF1 (lit "rejected")) ++
    performed 5 analyst (proposeF1 (lit "mitigate"))

theorem reproposed_run :
    ((governanceCore.run governanceStart reproposed).db.findings.find? (lit "F-1")).map
      Finding.status = some .pendingApproval ∧
    ((governanceCore.run governanceStart (reproposed ++ [.resume 3 (stampAt 3)])).db.findings.find?
      (lit "F-1")).map (fun row => (row.status, row.treatmentType)) =
        some (.accepted, some .mitigate) := by decide +kernel

/-- The approval that commits then accepts a risk whose treatment is mitigation. -/
theorem accepted_against_treatment :
    ¬ governanceCore.Along (fun s a => AcceptanceMatches s.db (governanceCore.next s a).db)
      governanceStart (reproposed ++ [.resume 3 (stampAt 3)]) := by
  intro h
  obtain ⟨hbefore, hafter⟩ := reproposed_run
  obtain ⟨row, hrow, hpair⟩ := Option.map_eq_some_iff.mp hafter
  obtain ⟨hstatus, htreatment⟩ := Prod.mk.inj hpair
  rw [Machine.run_concat] at hrow
  have hmatches := (Machine.along_append.mp h).2.1
  have haccept := hmatches.accepted (lit "F-1") row hrow hstatus (by
    intro q hq
    rw [hq] at hbefore
    rw [Option.some.inj hbefore]
    decide)
  rw [htreatment] at haccept
  cases haccept

/-! ### Separation of duties -/

/-- The owner of the risk is the approver at the commit only if it was at the read. -/
def OwnerAsRead (s : Sys F S) (a : Action F) : Prop :=
  ∀ x ∈ s.approval? a, x.row.riskOwner ≠ x.read.riskOwner → x.row.riskOwner ≠ x.actor.actorId

instance (s : Sys F S) (a : Action F) : Decidable (OwnerAsRead s a) := by
  unfold OwnerAsRead
  infer_instance

def EventType.isDecision : EventType → Bool
  | .treatmentApproved | .treatmentRejected => true
  | _ => false

/-- The decisions added between two databases were not made by the owner of the risk. -/
def DecidedByOthers (db db' : Db F) : Prop :=
  ∀ e ∈ newEvents db db', e.eventType.isDecision = true →
    ∃ row, db'.findings.find? e.findingId = some row ∧ e.actorId ≠ row.riskOwner

/-- A decision added by an effect is the one that an approval commits. -/
theorem Effect.decision {db db' : Db F} {p : Pending F} {stamp : Stamp F}
    (h : Effect H db p stamp db') {e : Event F} (he : e ∈ newEvents db db')
    (htype : e.eventType.isDecision = true) :
    ∃ decision reason read row row', p.phase = .mutate (.approve decision reason read) ∧
      db.findings.find? read.findingId = some row ∧ row.status = .pendingApproval ∧
      db'.findings.find? e.findingId = some row' ∧ row'.riskOwner = row.riskOwner ∧
      e.actorId = p.actor.actorId := by
  have hlogged {k : Text} {type : EventType} {details : Fields F} {d : Event F}
      (hlog : Logged H db db' k type p.actor details stamp.now d) :
      e.findingId = k ∧ e.eventType = type ∧ e.actorId = p.actor.actorId := by
    rw [hlog.newEvents_eq, List.mem_singleton] at he
    subst he
    obtain ⟨o, x, hrows, -, -⟩ := hlog.rows
    exact ⟨hrows.findingId, hrows.eventType, hrows.actorId⟩
  cases h with
  | none =>
    rw [newEvents_self] at he
    cases he
  | created args upsert d phase fresh findings records logged scalars =>
    rw [(hlogged logged).2.1] at htype
    cases htype
  | reassessed args row d phase found identity findings records logged =>
    rw [(hlogged logged).2.1] at htype
    cases htype
  | submitted args stored finding row d phase found status findings records logged readable =>
    rw [(hlogged logged).2.1] at htype
    cases htype
  | mutated change m row d phase mutation found status findings records logged readable =>
    obtain ⟨hkey, hevent, hactor⟩ := hlogged logged
    subst mutation
    cases change with
    | approve decision reason read =>
      have hrow' := (findings e.findingId).trans (by rw [hkey, found, Option.map_some, if_pos rfl])
      have hpending : row.status = .pendingApproval := by simpa [Change.mutation] using status
      exact ⟨decision, reason, read, row, _, phase, found, hpending, hrow', rfl, hactor⟩
    | verify passed notes finding =>
      rw [hevent] at htype
      cases passed <;> cases htype
    | _ =>
      rw [hevent] at htype
      cases htype

/-- In every run whose approvals find an owner of the risk that they read, or another one than
the approver, no owner decides on a finding at the commit. -/
theorem decided_by_others (H : Digest) (store : EvidenceStore S) (objects : S)
    (actions : List (Action F))
    (hread : (governance H store).Along OwnerAsRead (Sys.init objects) actions) :
    (governance H store).Along
      (fun s a => DecidedByOthers s.db ((governance H store).next s a).db)
      (Sys.init objects) actions := by
  refine hread.imp_of_invariant (I := Sys.Sound) (fun s a _ hs => next_sound hs a) ?_
    (sound_init objects)
  intro s a hC hs e he htype
  rcases next_effect H store s a with h | ⟨p, stamp, htaken, heffect⟩
  · rw [h, newEvents_self] at he
    cases he
  · obtain ⟨decision, reason, read, row, row', hphase, hfind, hstatus, hrow', howner, hactor⟩ :=
      heffect.decision he htype
    have hchecked := hs.checked htaken
    rw [Pending.Checked, hphase] at hchecked
    refine ⟨row', hrow', ?_⟩
    rw [howner, hactor]
    intro hsame
    have hchanged : row.riskOwner ≠ read.riskOwner := by
      rw [← hsame]
      exact hchecked
    exact hC _ (approval?_eq htaken hphase hfind hstatus) hchanged hsame.symm

/-- The owner of the risk changes to somebody else than the approver before the approval. -/
theorem decided_by_others_reassigned :
    governanceCore.Along (fun s a => DecidedByOthers s.db (governanceCore.next s a).db)
      governanceStart
      (performed 0 analyst createF1 ++ performed 1 analyst assessF1 ++
        performed 2 analyst (proposeF1 (lit "accept")) ++
        [.call approver (approveF1 (lit "approved")) (uuid 3)] ++ reassigned 4 (lit "owner-2") ++
        [.resume 3 (stampAt 3)]) :=
  decided_by_others sha256 (memoryEvidenceStore sha256) Table.empty _ (by decide +kernel)

/-- The approver becomes the owner of the risk between the read and the commit of its approval. -/
def reassignedToApprover : List (Action Tick) :=
  performed 0 analyst createF1 ++ performed 1 analyst assessF1 ++
    performed 2 analyst (proposeF1 (lit "accept")) ++
    [.call approver (approveF1 (lit "approved")) (uuid 3)] ++ reassigned 4 approver.actorId

theorem reassigned_run :
    (newEvents (governanceCore.run governanceStart reassignedToApprover).db
      (governanceCore.run governanceStart (reassignedToApprover ++ [.resume 3 (stampAt 3)])).db).map
      (fun e => (e.findingId, e.eventType, e.actorId)) =
        [(lit "F-1", .treatmentApproved, approver.actorId)] ∧
    ((governanceCore.run governanceStart (reassignedToApprover ++ [.resume 3 (stampAt 3)])).db.findings.find?
      (lit "F-1")).map Finding.riskOwner = some approver.actorId := by decide +kernel

/-- The approval that commits then is the owner's. -/
theorem decided_by_owner :
    ¬ governanceCore.Along (fun s a => DecidedByOthers s.db (governanceCore.next s a).db)
      governanceStart (reassignedToApprover ++ [.resume 3 (stampAt 3)]) := by
  intro h
  obtain ⟨hevents, howner⟩ := reassigned_run
  have hothers := (Machine.along_append.mp h).2.1
  simp only [← Machine.run_concat] at hothers
  obtain ⟨e, he, htriple⟩ := List.mem_map.mp (hevents ▸ List.mem_singleton_self _)
  obtain ⟨hkey, hpair⟩ := Prod.mk.inj htriple
  obtain ⟨htype, hactor⟩ := Prod.mk.inj hpair
  obtain ⟨row, hrow, hne⟩ := hothers e he (by rw [htype]; rfl)
  rw [hkey] at hrow
  rw [hrow] at howner
  rw [Option.map_some, Option.some.injEq] at howner
  exact hne (hactor.trans howner.symm)

end SentinelGRC.Governance
