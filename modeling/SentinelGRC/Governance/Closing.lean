import SentinelGRC.Governance.Lifecycle
import SentinelGRC.Governance.Progress

/-!
A way to closure from every state. Whatever a run has done to a finding, and whatever is
under way or stopped, a few operations close it: those that are left of the lifecycle, by
people who are independent of each other, as far as nothing outside the core obstructs them.
-/

namespace SentinelGRC.Governance

open Python Json Store Transition

variable {F S : Type}

/-! ### Plans -/

/-- The operations that bring a finding forward. -/
inductive Stage
  | assess | propose | approve | start | submit | verify | close
  deriving DecidableEq

/-- The statuses that a stage begins in. -/
def Stage.statuses : Stage → List Status
  | .assess => [.opened, .rejected]
  | .propose => [.riskAssessed]
  | .approve => [.pendingApproval]
  | .start => [.approved]
  | .submit => [.inProgress]
  | .verify => [.pendingVerification]
  | .close => [.verified, .accepted]

/-- The phases that the operation of a stage takes. -/
def Stage.phases : Stage → ℕ
  | .submit => 2
  | _ => 1

/-- Who brings a finding forward, what they write, and what the core draws while they do. -/
structure Plan (F : Type) where
  owner : ActorContext
  approver : ActorContext
  verifier : ActorContext
  likelihood : Severity
  impact : Severity
  treatment : Treatment
  treatmentReason : RequiredText
  actionOwner : Identifier
  dueDate : Option Text
  decisionReason : Text
  implementer : Identifier
  source : Identifier
  content : Bytes
  notes : Text
  closureReason : Text
  recordId : Stage → Uuid
  stamp : Stage → Stamp F

namespace Plan

def actor (plan : Plan F) : Stage → ActorContext
  | .approve | .close => plan.approver
  | .verify => plan.verifier
  | .assess | .propose | .start | .submit => plan.owner

def operation (plan : Plan F) (findingId : Text) : Stage → Operation
  | .assess => .assessRisk findingId plan.likelihood.text plan.impact.text
  | .propose => .proposeTreatment findingId plan.treatment.text plan.treatmentReason.text
      plan.actionOwner.text plan.dueDate
  | .approve => .approveTreatment findingId Decision.approved.text plan.decisionReason
  | .start => .startAction findingId plan.implementer.text
  | .submit => .submitEvidence findingId plan.source.text (.bytes plan.content)
  | .verify => .verify findingId true plan.notes
  | .close => .close findingId plan.closureReason

/-- The operation of a stage, as number `i`, without interruption. -/
def perform (plan : Plan F) (findingId : Text) (i : ℕ) (stage : Stage) : List (Action F) :=
  .call (plan.actor stage) (plan.operation findingId stage) (plan.recordId stage) ::
    List.replicate stage.phases (.resume i (plan.stamp stage))

/-- The operations of stages, the first of them as number `i`. -/
def actions (plan : Plan F) (findingId : Text) : ℕ → List Stage → List (Action F)
  | _, [] => []
  | i, stage :: rest => plan.perform findingId i stage ++ plan.actions findingId (i + 1) rest

/-- What follows the approval of a treatment. -/
def afterApproval : Option Treatment → List Stage
  | some .accept => [.close]
  | _ => [.start, .submit, .verify, .close]

/-- What is left of the lifecycle of a finding. -/
def remaining (plan : Plan F) (row : Finding F) : List Stage :=
  match row.status with
  | .opened | .rejected => .assess :: .propose :: .approve :: afterApproval (some plan.treatment)
  | .riskAssessed => .propose :: .approve :: afterApproval (some plan.treatment)
  | .pendingApproval => .approve :: afterApproval row.treatmentType
  | .approved => [.start, .submit, .verify, .close]
  | .inProgress => [.submit, .verify, .close]
  | .pendingVerification => [.verify, .close]
  | .verified | .accepted => [.close]
  | .closed => []

/-- The people of a plan have the roles they need, and its texts pass the checks. -/
structure Valid (plan : Plan F) : Prop where
  owner : plan.owner.role ∈ [Role.riskOwner, .analyst, .admin]
  approver : plan.approver.role ∈ [Role.approver, .ciso, .riskCommittee]
  verifier : plan.verifier.role ∈ [Role.analyst, .approver, .ciso, .riskCommittee]
  usable : ∀ actor ∈ [plan.owner, plan.approver, plan.verifier], actor.Usable
  scalars : ∀ t ∈ [plan.treatmentReason.text, plan.actionOwner.text, plan.decisionReason,
    plan.implementer.text, plan.source.text, plan.notes, plan.closureReason], Scalar t
  dueDate : ∀ t ∈ plan.dueDate, isIsoDate t = true ∧ Scalar t
  content : plan.content ≠ [] ∧ plan.content.length ≤ maxEvidenceBytes

/-- The approver does not own the risk; the verifier neither implements nor submits. -/
structure Independent (plan : Plan F) (row : Finding F) : Prop where
  approver : plan.approver.actorId ≠ row.riskOwner
  verifier : plan.verifier.actorId ≠ plan.owner.actorId ∧
    plan.verifier.actorId ≠ strip plan.implementer.text
  implementer : row.implementer ≠ some plan.verifier.actorId
  submitter : row.evidenceSubmitter ≠ some plan.verifier.actorId

/-! ### Checks -/

theorem status_of_remaining {plan : Plan F} {row : Finding F} {stage : Stage} {rest : List Stage}
    (h : plan.remaining row = stage :: rest) : row.status ∈ stage.statuses := by
  unfold remaining at h
  cases hstatus : row.status with
  | closed =>
    rw [hstatus] at h
    cases h
  | opened | rejected | riskAssessed | pendingApproval | approved | inProgress | pendingVerification
    | verified | accepted =>
    rw [hstatus] at h
    obtain ⟨rfl, -⟩ := List.cons.inj h
    decide

end Plan

/-- A checked text, stripped again. -/
def BoundedText.stripped {limit : ℕ} (b : BoundedText limit) : BoundedText limit where
  text := strip b.text
  nonblank := (blank_strip b.text).trans b.nonblank
  short := (length_strip_le b.text).trans b.short

theorem requiredText_text {limit : ℕ} (b : BoundedText limit) (field : Text) :
    requiredText b.text field limit = .ok b.stripped := by
  unfold requiredText
  rw [dif_neg]
  · rfl
  · rw [b.nonblank, not_or, not_lt]
    exact ⟨Bool.false_ne_true, b.short⟩

theorem riskRating_text (s : Severity) (field : Text) : riskRating s.text field = .ok s := by
  cases s <;> rfl

theorem treatmentType_text (t : Treatment) : treatmentType t.text = .ok t := by
  cases t <;> rfl

theorem checkDueDate_of_isIsoDate {dueDate : Option Text} (h : ∀ t ∈ dueDate, isIsoDate t = true) :
    checkDueDate dueDate = .ok dueDate := by
  cases dueDate with
  | none => rfl
  | some t => exact if_pos (h t rfl)

theorem getFinding_of_usable {db : Db F} {row : Finding F}
    (h : db.findings.find? row.findingId = some row) (husable : row.Usable) :
    getFinding db row.findingId = .ok row := by
  refine bind_eq_ok.mpr ⟨(), bindTexts_eq_ok.mpr (by simpa using husable.findingId), ?_⟩
  rw [h]
  rfl

namespace Plan

/-- What a stage does, apart from the submission of evidence. -/
def change (plan : Plan F) (row : Finding F) : Stage → Option (Change F)
  | .assess => some (.assess plan.likelihood plan.impact row)
  | .propose => some (.propose row.findingId plan.treatment plan.treatmentReason.stripped
      plan.actionOwner.stripped plan.dueDate)
  | .approve => some (.approve .approved plan.decisionReason row)
  | .start => some (.start plan.implementer.stripped row)
  | .submit => none
  | .verify => some (.verify true plan.notes row)
  | .close => some (.close plan.closureReason row)

variable {H : Digest} {plan : Plan F} {row : Finding F} {stage : Stage} {rest : List Stage}

/-- The checks of a stage pass. -/
theorem begin_change (hvalid : plan.Valid) (hindependent : plan.Independent row) {db : Db F}
    (hrow : getFinding db row.findingId = .ok row) (hstatus : row.status ∈ stage.statuses)
    {change : Change F} (hchange : plan.change row stage = some change) :
    begin H db (plan.actor stage) (plan.operation row.findingId stage) = .ok (.mutate change) := by
  have hrequire {actor : ActorContext} {roles : List Role} (h : actor.role ∈ roles) :
      require actor roles = .ok () := if_pos h
  cases stage with
  | assess =>
    cases hchange
    exact bind_eq_ok.mpr ⟨(), hrequire hvalid.owner, bind_eq_ok.mpr ⟨_, riskRating_text _ _,
      bind_eq_ok.mpr ⟨_, riskRating_text _ _, bind_eq_ok.mpr ⟨row, hrow, rfl⟩⟩⟩⟩
  | propose =>
    cases hchange
    have hdueDate := checkDueDate_of_isIsoDate fun t ht => (hvalid.dueDate t ht).1
    exact bind_eq_ok.mpr ⟨(), hrequire hvalid.owner, bind_eq_ok.mpr ⟨_, treatmentType_text _,
      bind_eq_ok.mpr ⟨_, requiredText_text _ _, bind_eq_ok.mpr ⟨_, requiredText_text _ _,
        bind_eq_ok.mpr ⟨_, hdueDate, rfl⟩⟩⟩⟩⟩
  | approve =>
    cases hchange
    refine bind_eq_ok.mpr ⟨(), hrequire hvalid.approver, bind_eq_ok.mpr ⟨.approved, rfl,
      bind_eq_ok.mpr ⟨row, hrow, ?_⟩⟩⟩
    exact if_neg hindependent.approver
  | start =>
    cases hchange
    exact bind_eq_ok.mpr ⟨(), hrequire hvalid.owner, bind_eq_ok.mpr ⟨_, requiredText_text _ _,
      bind_eq_ok.mpr ⟨row, hrow, rfl⟩⟩⟩
  | submit => cases hchange
  | verify =>
    cases hchange
    refine bind_eq_ok.mpr ⟨(), hrequire hvalid.verifier, bind_eq_ok.mpr ⟨row, hrow, ?_⟩⟩
    exact if_neg (not_or.mpr ⟨hindependent.implementer, hindependent.submitter⟩)
  | close =>
    cases hchange
    have hclosable : row.status = .verified ∨ row.status = .accepted := by
      simpa [Stage.statuses] using hstatus
    refine bind_eq_ok.mpr ⟨(), hrequire hvalid.approver, bind_eq_ok.mpr ⟨row, hrow, ?_⟩⟩
    exact if_neg (by rwa [not_and_or, not_not, not_not])

/-- The submission of evidence goes on to the store. -/
theorem begin_submit (hvalid : plan.Valid) {db : Db F} (hrow : getFinding db row.findingId = .ok row)
    (hstatus : row.status = .inProgress) : ∃ args : EvidenceArgs,
      args.source = plan.source.stripped ∧ begin H db plan.owner
        (plan.operation row.findingId .submit) = .ok (.persist args row) := by
  have hsize : ¬ (plan.content.isEmpty ∨ maxEvidenceBytes < plan.content.length) := by
    rw [not_or, List.isEmpty_iff, not_lt]
    exact hvalid.content
  have hprepared : prepareEvidence H plan.source.text (.bytes plan.content) =
      .ok ⟨plan.source.stripped, plan.content, H.hexdigest plan.content⟩ := by
    refine bind_eq_ok.mpr ⟨_, requiredText_text _ _, ?_⟩
    exact if_neg hsize
  refine ⟨⟨plan.source.stripped, plan.content, H.hexdigest plan.content⟩, rfl, ?_⟩
  refine bind_eq_ok.mpr ⟨(), if_pos hvalid.owner, bind_eq_ok.mpr ⟨_, hprepared,
    bind_eq_ok.mpr ⟨row, hrow, ?_⟩⟩⟩
  rw [hstatus]
  rfl

/-- The mutation of a stage is ready. -/
theorem ready_change (hvalid : plan.Valid) (husable : row.Usable) (hstatus : row.status ∈ stage.statuses)
    {change : Change F} (hchange : plan.change row stage = some change) (id : Uuid) :
    (change.mutation (plan.actor stage) id).Ready row := by
  have hscalars := hvalid.scalars
  have hactors := hvalid.usable
  simp only [List.mem_cons, List.not_mem_nil, or_false, forall_eq_or_imp, forall_eq] at hscalars hactors
  obtain ⟨hreason, hactionOwner, hdecision, himplementer, -, hnotes, hclosure⟩ := hscalars
  obtain ⟨howner, happrover, hverifier⟩ := hactors
  cases stage with
  | assess =>
    cases hchange
    refine ⟨rfl, hstatus, by simp [Change.mutation, Updates.texts], rfl, ?_, rfl⟩
    simpa [Change.mutation, Workflow.bound] using ⟨husable.findingId, husable.riskOwner⟩
  | propose =>
    cases hchange
    refine ⟨rfl, hstatus, ?_, rfl, ?_, rfl⟩
    · intro t ht
      simp only [Change.mutation, Updates.texts, List.mem_append, List.mem_cons, List.not_mem_nil,
        or_false, Option.mem_toList] at ht
      rcases ht with (rfl | rfl) | ht
      · exact hreason.strip
      · exact hactionOwner.strip
      · exact (hvalid.dueDate t ht).2
    · simpa [Change.mutation, Workflow.bound] using ⟨husable.findingId, hreason.strip, howner.1⟩
  | approve =>
    cases hchange
    refine ⟨rfl, hstatus, by simp [Change.mutation, Updates.texts], rfl, ?_, rfl⟩
    simpa [Change.mutation, Workflow.bound] using ⟨husable.findingId, happrover.1, hdecision⟩
  | start =>
    cases hchange
    refine ⟨rfl, hstatus, ?_, rfl, ?_, husable.owned (.inr (List.mem_singleton.mp hstatus))⟩
    · simpa [Change.mutation, Updates.texts, BoundedText.stripped] using himplementer.strip
    · intro t ht
      simp only [Change.mutation, Workflow.bound, List.mem_append, List.mem_cons, List.not_mem_nil,
        or_false, Option.mem_toList] at ht
      rcases ht with ((rfl | rfl) | ht) | ht
      · exact husable.findingId
      · exact himplementer.strip
      · exact husable.actionOwner t ht
      · exact husable.dueDate t ht
  | submit => cases hchange
  | verify =>
    cases hchange
    refine ⟨rfl, hstatus, by simp [Change.mutation, Updates.texts], rfl, ?_, rfl⟩
    simpa [Change.mutation, Workflow.bound] using ⟨husable.findingId, hverifier.1, hnotes⟩
  | close =>
    cases hchange
    refine ⟨rfl, hstatus, by simp [Change.mutation, Updates.texts], rfl, ?_, rfl⟩
    simpa [Change.mutation, Workflow.bound] using ⟨husable.findingId, happrover.1, hclosure⟩

/-- A stage leaves what came after it. -/
theorem remaining_change (h : plan.remaining row = stage :: rest) {change : Change F}
    (hchange : plan.change row stage = some change) (id : Uuid) (now : F) :
    plan.remaining ((change.mutation (plan.actor stage) id).apply now row) = rest := by
  have hstatus := status_of_remaining h
  unfold remaining at h
  cases stage with
  | assess =>
    cases hchange
    rcases List.mem_pair.mp hstatus with hstatus | hstatus <;>
      (rw [hstatus] at h; exact (List.cons.inj h).2)
  | propose =>
    cases hchange
    rw [List.mem_singleton.mp hstatus] at h
    exact (List.cons.inj h).2
  | approve =>
    cases hchange
    rw [List.mem_singleton.mp hstatus] at h
    obtain ⟨-, rfl⟩ := List.cons.inj h
    change plan.remaining { row with status := treatmentApprovalStatus .approved row.treatmentType, updatedAt := now } = _
    rcases row.treatmentType with _ | _ | _ | _ | _ <;> rfl
  | start =>
    cases hchange
    rw [List.mem_singleton.mp hstatus] at h
    exact (List.cons.inj h).2
  | submit => cases hchange
  | verify =>
    cases hchange
    rw [List.mem_singleton.mp hstatus] at h
    exact (List.cons.inj h).2
  | close =>
    cases hchange
    rcases List.mem_pair.mp hstatus with hstatus | hstatus <;>
      (rw [hstatus] at h; exact (List.cons.inj h).2)

theorem remaining_submitted (h : plan.remaining row = .submit :: rest) (actorId : Text) (now : F) :
    plan.remaining (submitted actorId now row) = rest := by
  unfold remaining at h
  rw [List.mem_singleton.mp (status_of_remaining h)] at h
  exact (List.cons.inj h).2

/-- The people stay independent, as a stage makes only those of the plan part of the finding. -/
theorem independent_change (h : plan.Independent row) {change : Change F}
    (hchange : plan.change row stage = some change) (id : Uuid) (now : F) :
    plan.Independent ((change.mutation (plan.actor stage) id).apply now row) := by
  cases stage with
  | start =>
    cases hchange
    refine ⟨h.approver, h.verifier, ?_, h.submitter⟩
    intro himplementer
    exact h.verifier.2 (Option.some.inj himplementer).symm
  | submit => cases hchange
  | assess | propose | approve | verify | close =>
    cases hchange
    exact ⟨h.approver, h.verifier, h.implementer, h.submitter⟩

theorem independent_submitted (h : plan.Independent row) (now : F) :
    plan.Independent (submitted plan.owner.actorId now row) := by
  refine ⟨h.approver, h.verifier, h.implementer, ?_⟩
  intro hsubmitter
  exact h.verifier.1 (Option.some.inj hsubmitter).symm

/-! ### Runs -/

variable [PyFloat F] {store : EvidenceStore S}

/-- One stage takes the finding to the next one. -/
theorem run_perform (hvalid : plan.Valid) {s : Sys F S} (hs : Standing H s) {k : Text}
    (hrow : s.db.findings.find? k = some row) (hindependent : plan.Independent row)
    (hremaining : plan.remaining row = stage :: rest)
    (hpath : (governance H store).Along (Unobstructed H store) s
      (plan.perform k s.pending.length stage)) :
    ∃ row', ((governance H store).run s (plan.perform k s.pending.length stage)).db.findings.find? k =
        some row' ∧
      ((governance H store).run s (plan.perform k s.pending.length stage)).pending.length =
        s.pending.length + 1 ∧
      plan.Independent row' ∧ plan.remaining row' = rest := by
  obtain rfl : row.findingId = k := (Table.find?_eq_some.mp hrow).2
  have husable := hs.usable.rows _ _ hrow
  have hread := getFinding_of_usable hrow husable
  have hstatus := status_of_remaining hremaining
  have hactor : (plan.actor stage).Usable := by
    refine hvalid.usable _ ?_
    cases stage <;> simp [actor]
  cases hchange : plan.change row stage with
  | some change =>
    have hphases : stage.phases = 1 := by
      cases stage with
      | submit => cases hchange
      | assess | propose | approve | start | verify | close => rfl
    unfold perform at hpath ⊢
    rw [hphases] at hpath ⊢
    obtain ⟨db', hrun, hfind⟩ := run_mutated hs hactor hrow
      (begin_change hvalid hindependent hread hstatus hchange)
      (ready_change hvalid husable hstatus hchange _) hpath
    rw [List.replicate_one, hrun]
    exact ⟨_, hfind, List.length_append, independent_change hindependent hchange _ _,
      remaining_change hremaining hchange _ _⟩
  | none =>
    obtain rfl : stage = .submit := by
      cases stage with
      | submit => rfl
      | assess | propose | approve | start | verify | close => cases hchange
    have hprogress := List.mem_singleton.mp hstatus
    obtain ⟨args, hsource, hbegin⟩ := begin_submit (H := H) hvalid hread hprogress
    have hscalar : Scalar args.source.text := by
      rw [hsource]
      exact (hvalid.scalars _ (by simp)).strip
    obtain ⟨db', objects, hrun, hfind⟩ := run_submitted hs hactor hrow hprogress hscalar hbegin hpath
    have hperform : plan.perform row.findingId s.pending.length .submit =
        [.call plan.owner (plan.operation row.findingId .submit) (plan.recordId .submit),
          .resume s.pending.length (plan.stamp .submit),
          .resume s.pending.length (plan.stamp .submit)] := rfl
    rw [hperform]
    change ((governance H store).run s _) = _ at hrun
    simp only [actor] at hrun hfind
    rw [hrun]
    exact ⟨_, hfind, List.length_append, independent_submitted hindependent _,
      remaining_submitted hremaining _ _⟩

/-- The stages that are left close the finding. -/
theorem run_actions (hvalid : plan.Valid) {k : Text} (stages : List Stage) {s : Sys F S}
    (hs : Standing H s) (hrow : s.db.findings.find? k = some row)
    (hindependent : plan.Independent row) (hremaining : plan.remaining row = stages)
    (hpath : (governance H store).Along (Unobstructed H store) s
      (plan.actions k s.pending.length stages)) :
    ((governance H store).run s (plan.actions k s.pending.length stages)).db.status? k =
      some .closed := by
  induction stages generalizing s row with
  | nil =>
    have hclosed : row.status = .closed := by
      unfold remaining at hremaining
      cases hstatus : row.status with
      | closed => rfl
      | opened | rejected | riskAssessed | pendingApproval | approved | inProgress
        | pendingVerification | verified | accepted =>
        rw [hstatus] at hremaining
        cases hremaining
    rw [actions, Machine.run_nil, Db.status?, hrow, Option.map_some, hclosed]
  | cons stage rest ih =>
    rw [actions, Machine.along_append] at hpath
    obtain ⟨row', hrow', hlength, hindependent', hremaining'⟩ :=
      run_perform hvalid hs hrow hindependent hremaining hpath.1
    rw [actions, Machine.run_append, ← hlength]
    rw [← hlength] at hpath
    exact ih (hs.run _) hrow' hindependent' hremaining' hpath.2

end Plan

/-- In every state of a run a plan with independent people closes a finding that is there. -/
theorem finding_closable (H : Digest) (store : EvidenceStore S) [PyFloat F] (objects : S)
    (past : List (Action F)) (k : Text) (row : Finding F) (plan : Plan F)
    (hrow : ((governance H store).run (Sys.init objects) past).db.findings.find? k = some row)
    (hvalid : plan.Valid) (hindependent : plan.Independent row)
    (hpath : (governance H store).Along (Unobstructed H store)
      ((governance H store).run (Sys.init objects) past)
      (plan.actions k ((governance H store).run (Sys.init objects) past).pending.length
        (plan.remaining row))) :
    ((governance H store).run (Sys.init objects) (past ++ plan.actions k
      ((governance H store).run (Sys.init objects) past).pending.length
      (plan.remaining row))).db.status? k = some .closed := by
  rw [Machine.run_append]
  exact Plan.run_actions hvalid _ ((standing_init objects).run past) hrow hindependent rfl hpath

/-! ### A finding that has just been created -/

/-- The number of the operation of a stage. -/
def stageNumber : Stage → Fin 10
  | .assess => 1
  | .propose => 2
  | .approve => 3
  | .start => 4
  | .submit => 5
  | .verify => 6
  | .close => 7

theorem not_blank_ownerF1 : blank (lit "owner-1") = false := by decide

theorem short_ownerF1 : (lit "owner-1").length ≤ maxIdentifierLength := by decide

theorem not_blank_sourceF1 : blank (lit "scanner") = false := by decide

theorem short_sourceF1 : (lit "scanner").length ≤ maxIdentifierLength := by decide

theorem not_blank_reasonF1 : blank (lit "reason") = false := by decide

theorem short_reasonF1 : (lit "reason").length ≤ maxTextLength := by decide

/-- The risk of the finding is to be accepted. -/
def planF1 : Plan Tick where
  owner := analyst
  approver := approver
  verifier := committee
  likelihood := .high
  impact := .high
  treatment := .accept
  treatmentReason := ⟨lit "reason", not_blank_reasonF1, short_reasonF1⟩
  actionOwner := ⟨lit "owner-1", not_blank_ownerF1, short_ownerF1⟩
  dueDate := none
  decisionReason := lit "reason"
  implementer := ⟨lit "owner-1", not_blank_ownerF1, short_ownerF1⟩
  source := ⟨lit "scanner", not_blank_sourceF1, short_sourceF1⟩
  content := [0x31]
  notes := lit "notes"
  closureReason := lit "reason"
  recordId := fun stage => uuid (stageNumber stage)
  stamp := fun stage => stampAt (stageNumber stage)

theorem valid_planF1 : planF1.Valid where
  owner := by decide
  approver := by decide
  verifier := by decide
  usable := by
    intro actor hactor
    have hall : ∀ actor ∈ [analyst, approver, committee],
        Scalar actor.actorId ∧ Scalar actor.authMethod := by decide
    exact hall actor hactor
  scalars := by decide
  dueDate := by
    intro t ht
    cases ht
  content := by decide

/-- The state after the creation. -/
def createdF1 : Sys Tick MemoryObjects := (governance sha256 (memoryEvidenceStore sha256)).run
  (Sys.init Table.empty) (performed 0 analyst createF1)

theorem isSome_createdF1 : (createdF1.db.findings.find? (lit "F-1")).isSome = true := by
  decide +kernel

def rowF1 : Finding Tick := (createdF1.db.findings.find? (lit "F-1")).get isSome_createdF1

theorem find?_createdF1 : createdF1.db.findings.find? (lit "F-1") = some rowF1 :=
  (Option.some_get isSome_createdF1).symm

theorem independent_planF1 : planF1.Independent rowF1 := by
  have hpeople : planF1.approver.actorId ≠ rowF1.riskOwner ∧
      rowF1.implementer ≠ some planF1.verifier.actorId ∧
      rowF1.evidenceSubmitter ≠ some planF1.verifier.actorId := by decide +kernel
  exact ⟨hpeople.1, by decide, hpeople.2.1, hpeople.2.2⟩

def closingF1 : List (Action Tick) :=
  planF1.actions (lit "F-1") createdF1.pending.length (planF1.remaining rowF1)

/-- The four operations that are left close it. -/
theorem finding_closable_created : ((governance sha256 (memoryEvidenceStore sha256)).run
    (Sys.init Table.empty) (performed 0 analyst createF1 ++ closingF1)).db.status? (lit "F-1") =
      some .closed := by
  have hrow := find?_createdF1
  unfold createdF1 at hrow
  unfold closingF1 createdF1
  refine finding_closable sha256 (memoryEvidenceStore sha256) Table.empty (performed 0 analyst createF1)
    (lit "F-1") rowF1 planF1 hrow valid_planF1 independent_planF1 ?_
  decide +kernel

end SentinelGRC.Governance
