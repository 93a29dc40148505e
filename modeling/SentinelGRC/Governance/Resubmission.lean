import SentinelGRC.Governance.EvidenceObjects
import SentinelGRC.Governance.Lifecycle

/-!
Evidence submitted again. A submission that finds its evidence among the rows of the finding
returns without an event. The rows are those of every round, so what it finds may be evidence
that failed verification long ago, while other evidence is pending.
-/

namespace SentinelGRC.Governance

open Python Json Store Transition

variable {F S : Type}

/-! ### Rounds -/

/-- The evidence of a finding, a row for each round. -/
def Db.evidenceOf (db : Db F) (k : Text) : List (Evidence F) :=
  db.governanceEvidence.rows.filter fun r => r.findingId = k

/-- The `evidence_submitted` events of a finding. -/
def Db.submittedOf (db : Db F) (k : Text) : List (Event F) :=
  (db.listEvents k).filter fun e => e.eventType = .evidenceSubmitted

/-- The finding and the arguments of a submission under way. -/
def Phase.submission? : Phase F → Option (Text × EvidenceArgs)
  | .duplicate args finding => some (finding.findingId, args)
  | .persist args finding => some (finding.findingId, args)
  | .commitEvidence args _ finding => some (finding.findingId, args)
  | _ => none

/-- The row is the evidence of a submission. -/
def EvidenceArgs.found (args : EvidenceArgs) (k : Text) (actor : ActorContext) (r : Evidence F) :
    Bool :=
  isDuplicate k args.digest args.source.text actor.actorId r

theorem isDuplicate_eq_true {k digest source actorId : Text} {r : Evidence F} :
    isDuplicate k digest source actorId r = true ↔ r.findingId = k ∧ r.sha256 = digest ∧
      r.source = source ∧ r.submittedBy = actorId ∧ r.status = lit "submitted" := by
  simp only [isDuplicate, Bool.and_eq_true, beq_iff_eq, and_assoc]

/-- The evidence of the last round is that of the submission. -/
def Db.LastFound (db : Db F) (k : Text) (actor : ActorContext) (args : EvidenceArgs) : Prop :=
  ∃ r, (db.evidenceOf k).getLast? = some r ∧ args.found k actor r = true

/-- A round before the last one had the evidence of the submission. -/
def Db.EarlierFound (db : Db F) (k : Text) (actor : ActorContext) (args : EvidenceArgs) : Prop :=
  ∃ r ∈ (db.evidenceOf k).dropLast, args.found k actor r = true

/-- The check for duplicates finds the evidence of one of the rounds. -/
theorem hasDuplicateEvidence_iff (db : Db F) (k : Text) (actor : ActorContext)
    (args : EvidenceArgs) :
    hasDuplicateEvidence db k args.digest args.source.text actor.actorId = true ↔
      db.EarlierFound k actor args ∨ db.LastFound k actor args := by
  have hsplit : hasDuplicateEvidence db k args.digest args.source.text actor.actorId = true ↔
      ∃ r ∈ db.evidenceOf k, args.found k actor r = true := by
    rw [hasDuplicateEvidence, List.any_eq_true]
    refine exists_congr fun r => ?_
    rw [Db.evidenceOf, List.mem_filter, EvidenceArgs.found, decide_eq_true_eq, and_assoc]
    refine and_congr_right fun _ => ?_
    rw [iff_and_self]
    intro h
    exact (isDuplicate_eq_true.mp h).1
  rw [hsplit, Db.EarlierFound, Db.LastFound]
  rcases List.eq_nil_or_concat' (db.evidenceOf k) with h | ⟨rows, last, h⟩
  · rw [h]
    simp
  · rw [h, List.dropLast_concat, List.getLast?_concat]
    constructor
    · rintro ⟨r, hr, hfound⟩
      rcases List.mem_append.mp hr with hr | hr
      · exact .inl ⟨r, hr, hfound⟩
      · exact .inr ⟨last, rfl, List.mem_singleton.mp hr ▸ hfound⟩
    · rintro (⟨r, hr, hfound⟩ | ⟨r, hlast, hfound⟩)
      · exact ⟨r, List.mem_append_left _ hr, hfound⟩
      · obtain rfl := Option.some.inj hlast
        exact ⟨last, List.mem_append_right _ List.mem_cons_self, hfound⟩

/-! ### The last event -/

/-- The event of a submission of this evidence by this actor. -/
structure Reports (e : Event F) (actor : ActorContext) (args : EvidenceArgs) [PyFloat F] :
    Prop where
  actorId : e.actorId = actor.actorId
  source : get e.details (lit "source") = .str args.source.text
  sha256 : get e.details (lit "sha256") = .str args.digest

variable [PyFloat F] {H : Digest} {store : EvidenceStore S}

/-- What a run keeps: a log in order, and one event for each row of evidence. -/
structure Submitted (H : Digest) (db : Db F) : Prop where
  log : LogInvariant H db
  rounds : InStep Submits db.governanceEvidence.rows db.submissions

theorem submitted_empty : Submitted H (Db.empty : Db F) := ⟨logInvariant_empty, InStep.nil⟩

theorem submitted_next {db db' : Db F} {p : Pending F} {stamp : Stamp F}
    (heffect : Effect H db p stamp db') (h : Submitted H db) : Submitted H db' where
  log := logInvariant_next heffect h.log
  rounds := by
    rcases heffect.submission with ⟨hrows, hevents⟩ | ⟨args, stored, finding, e, -, hrows, hevents, he⟩
    · rw [hrows, hevents]
      exact h.rounds
    · rw [hrows, hevents]
      exact h.rounds.concat he

theorem Submits.reports_iff {r : Evidence F} {e : Event F} (h : Submits r e) (actor : ActorContext)
    (args : EvidenceArgs) : Reports e actor args ↔ args.found r.findingId actor r = true := by
  have hsource : get e.details (lit "source") = .str r.source := by
    rw [h.get_details]
    exact sortKeys.eq_def _
  have hsha256 : get e.details (lit "sha256") = .str r.sha256 := by
    rw [h.get_details]
    exact sortKeys.eq_def _
  rw [EvidenceArgs.found, isDuplicate_eq_true]
  constructor
  · intro hreports
    refine ⟨rfl, ?_, ?_, h.actorId.symm.trans hreports.actorId, h.status⟩
    · exact Json.str.inj (hsha256.symm.trans hreports.sha256)
    · exact Json.str.inj (hsource.symm.trans hreports.source)
  · rintro ⟨-, hdigest, hname, hactor, -⟩
    exact ⟨h.actorId.trans hactor, hname ▸ hsource, hdigest ▸ hsha256⟩

/-- The last event reports the evidence exactly when the last round has it. -/
theorem Submitted.reports_iff {db : Db F} (h : Submitted H db) (k : Text) (actor : ActorContext)
    (args : EvidenceArgs) : (∃ e, (db.submittedOf k).getLast? = some e ∧ Reports e actor args) ↔
      db.LastFound k actor args := by
  have hevents : db.submittedOf k = db.submissions.filter fun e => e.findingId = k := by
    rw [Db.submittedOf, listEvents_eq (h.log.chains k), filter_eventsOf _ _ fun e he => by simpa using he]
    refine List.filter_congr fun e he => ?_
    have htype : e.eventType = .evidenceSubmitted := by simpa using (List.mem_filter.mp he).2
    simp [htype]
  have hstep : InStep Submits (db.evidenceOf k) (db.submittedOf k) := by
    rw [hevents]
    refine h.rounds.filter fun r e hsubmits => ?_
    rw [hsubmits.findingId]
  rw [Db.LastFound]
  rcases hstep.getLast? with ⟨hrow, hevent⟩ | ⟨r, e, hrow, hevent, hsubmits⟩
  · rw [hrow, hevent]
    simp
  · have hkey : r.findingId = k := by
      simpa using (List.mem_filter.mp (List.mem_of_getLast? hrow)).2
    rw [hrow, hevent]
    simp only [Option.some.injEq, exists_eq_left']
    exact hkey ▸ hsubmits.reports_iff actor args

/-! ### Transactions -/

/-- A transaction that commits no event found the evidence of a pending finding. -/
theorem repeated_of_commitEvidence {db db' : Db F} {k : Text} {actor : ActorContext}
    {args : EvidenceArgs} {evidenceId : Text} {stored : EvidenceObject} {stamp : Stamp F}
    (h : commitEvidence H db k actor args evidenceId stored stamp = .ok db')
    (hnone : newEvents db db' = []) : db' = db ∧ db.status? k = some .pendingVerification ∧
      hasDuplicateEvidence db k args.digest args.source.text actor.actorId = true := by
  have hok := h
  unfold commitEvidence at h
  obtain ⟨u, hbind, h⟩ := bind_eq_ok.mp h
  cases hrow : db.findings.find? k with
  | none =>
    rw [hrow] at h
    cases h
  | some row =>
    rw [hrow] at h
    simp only at h
    by_cases hs : row.status ≠ .inProgress
    · rw [if_pos hs] at h
      obtain ⟨u, hbind, h⟩ := bind_eq_ok.mp h
      split_ifs at h with hfound
      · cases h
        refine ⟨rfl, ?_, hfound.1⟩
        rw [Db.status?, hrow, Option.map_some, hfound.2]
      · cases h
    · -- a finding in progress gets a row, and its event with it
      rw [if_neg hs] at h
      obtain ⟨u, hbind', h⟩ := bind_eq_ok.mp h
      obtain ⟨evidence, hins, hevent⟩ := bind_eq_ok.mp h
      obtain ⟨⟨e, he⟩, -⟩ := event_eq_ok hevent
      have hlogged : newEvents db db' = [e] := by
        rw [newEvents, he.events]
        exact List.drop_left
      rw [hlogged] at hnone
      cases hnone

theorem commitEvidence_repeated {db : Db F} {k : Text} {actor : ActorContext} {args : EvidenceArgs}
    {r : Evidence F} (hr : args.found k actor r = true)
    (hscalars : ∀ t ∈ [r.findingId, r.sha256, r.source, r.submittedBy], Scalar t)
    (hstatus : db.status? k = some .pendingVerification)
    (hfound : hasDuplicateEvidence db k args.digest args.source.text actor.actorId = true)
    (evidenceId : Text) (stored : EvidenceObject) (stamp : Stamp F) :
    commitEvidence H db k actor args evidenceId stored stamp = .ok db := by
  obtain ⟨hkey, hdigest, hsource, hactor, -⟩ := isDuplicate_eq_true.mp hr
  rw [hkey, hdigest, hsource, hactor] at hscalars
  obtain ⟨row, hrow, hpending⟩ := Option.map_eq_some_iff.mp hstatus
  refine bind_eq_ok.mpr ⟨(), bindTexts_eq_ok.mpr fun t ht => hscalars t ?_, ?_⟩
  · rw [List.mem_singleton.mp ht]
    exact List.mem_cons_self
  · rw [hrow]
    have hne : row.status ≠ .inProgress := by
      rw [hpending]
      decide
    simp only
    rw [if_pos hne]
    refine bind_eq_ok.mpr ⟨(), bindTexts_eq_ok.mpr hscalars, ?_⟩
    rw [if_pos ⟨hfound, hpending⟩]
    rfl

/-! ### Steps -/

/-- The finding is pending on what the submission submits. -/
structure Waits (db : Db F) (k : Text) (actor : ActorContext) (args : EvidenceArgs) : Prop where
  status : db.status? k = some .pendingVerification
  last : ∃ e, (db.submittedOf k).getLast? = some e ∧ Reports e actor args

/-- A submission that returns without an event is about what is pending. -/
def ReportsPending (H : Digest) (store : EvidenceStore S) (s : Sys F S) (a : Action F) : Prop :=
  ∀ p stamp k args finding, s.taken a = some (p, stamp) → p.phase.submission? = some (k, args) →
    (governance H store).answer s a = .returned finding →
    newEvents s.db ((governance H store).next s a).db = [] →
    Waits ((governance H store).next s a).db k p.actor args

/-- A check for duplicates meets no evidence of an earlier round, unless the last round has it
again, and none at all once the finding has left the status it was read with. -/
def Phase.Current (db : Db F) (actor : ActorContext) : Phase F → Prop
  | .duplicate args finding =>
    if db.status? finding.findingId = some .pendingVerification then
      db.EarlierFound finding.findingId actor args → db.LastFound finding.findingId actor args
    else ¬ db.EarlierFound finding.findingId actor args ∧ ¬ db.LastFound finding.findingId actor args
  | .commitEvidence args _ finding =>
    db.status? finding.findingId = some .pendingVerification →
      db.EarlierFound finding.findingId actor args → db.LastFound finding.findingId actor args
  | _ => True

/-- The check for duplicates that an action makes, if any, is current. -/
def CurrentCheck (s : Sys F S) (a : Action F) : Prop :=
  ∀ p stamp, s.taken a = some (p, stamp) → p.phase.Current s.db p.actor

theorem next_taken (H : Digest) (store : EvidenceStore S) {s : Sys F S} {a : Action F} {p : Pending F} {stamp : Stamp F}
    (h : s.taken a = some (p, stamp)) :
    ((governance H store).next s a).db = (advance H store s.db s.objects p stamp).1.1 ∧
      ∀ finding, (governance H store).answer s a = .returned finding ↔
        (advance H store s.db s.objects p stamp).2 = .returned finding := by
  obtain ⟨i, rfl, hp⟩ := taken_eq_some.mp h
  simp only [Machine.next, Machine.answer, governance, hp]
  generalize advance H store s.db s.objects p stamp = out
  obtain ⟨⟨db, objects⟩, outcome⟩ := out
  cases outcome with
  | next phase =>
    refine ⟨rfl, fun finding => ?_⟩
    constructor <;> intro hreturned <;> cases hreturned
  | returned row =>
    refine ⟨rfl, fun finding => ?_⟩
    rw [Answer.returned.injEq, Outcome.returned.injEq]
  | raised e =>
    refine ⟨rfl, fun finding => ?_⟩
    constructor <;> intro hreturned <;> cases hreturned

omit [PyFloat F] in
theorem conclude_eq_returned {db : Db F} {k : Text} {outcome : Except PyError (Db F)}
    {finding : Finding F} : (conclude db k outcome).2 = .returned finding ↔
      ∃ db', outcome = .ok db' ∧ db'.findings.find? k = some finding := by
  cases outcome with
  | error e =>
    constructor
    · intro hreturned
      cases hreturned
    · rintro ⟨db', hok, -⟩
      cases hok
  | ok db' =>
    simp only [conclude, Except.ok.injEq, exists_eq_left']
    cases db'.findings.find? k with
    | none => constructor <;> intro hreturned <;> cases hreturned
    | some row => rw [Outcome.returned.injEq, Option.some.injEq]

/-- A phase ends its operation normally and commits no event. -/
def Repeats (H : Digest) (store : EvidenceStore S) (db : Db F) (objects : S) (p : Pending F)
    (stamp : Stamp F) : Prop :=
  (∃ finding, (advance H store db objects p stamp).2 = .returned finding) ∧
    newEvents db (advance H store db objects p stamp).1.1 = []

theorem Repeats.db_eq {db : Db F} {objects : S} {p : Pending F} {stamp : Stamp F}
    (h : Repeats H store db objects p stamp) : (advance H store db objects p stamp).1.1 = db := by
  rcases (advance_effect H store db objects p stamp).arrow with hsame | ⟨k, type, details, e, hlogged, -⟩
  · exact hsame
  · have hnone := h.2
    rw [hlogged.newEvents_eq] at hnone
    cases hnone

/-- The first check returns what it finds, whatever the finding has become. -/
theorem repeats_duplicate {db : Db F} {objects : S} {p : Pending F} {stamp : Stamp F}
    {args : EvidenceArgs} {finding : Finding F} (hphase : p.phase = .duplicate args finding) :
    Repeats H store db objects p stamp ↔
      db.EarlierFound finding.findingId p.actor args ∨ db.LastFound finding.findingId p.actor args := by
  rw [← hasDuplicateEvidence_iff, Repeats, advance, hphase]
  simp only
  split_ifs with hfound
  · exact iff_of_true ⟨⟨finding, rfl⟩, newEvents_self db⟩ hfound
  · exact iff_of_false (fun h => by cases h.1.choose_spec) hfound

theorem not_repeats_persist {db : Db F} {objects : S} {p : Pending F} {stamp : Stamp F}
    {args : EvidenceArgs} {finding : Finding F} (hphase : p.phase = .persist args finding) :
    ¬ Repeats H store db objects p stamp := by
  rintro ⟨⟨row, hrow⟩, -⟩
  rw [advance, hphase] at hrow
  simp only at hrow
  split at hrow
  · cases hrow
  · split_ifs at hrow

theorem Submitted.scalars {db : Db F} (h : Submitted H db) {r : Evidence F}
    (hr : r ∈ db.governanceEvidence.rows) :
    ∀ t ∈ [r.findingId, r.sha256, r.source, r.submittedBy], Scalar t := by
  obtain ⟨n, hn⟩ := List.mem_iff_getElem?.mp hr
  obtain ⟨hlt, -⟩ := List.getElem?_eq_some_iff.mp hn
  obtain ⟨e, he⟩ : ∃ e, db.submissions[n]? = some e :=
    ⟨_, List.getElem?_eq_getElem (h.rounds.length ▸ hlt)⟩
  exact (h.rounds.related n r e hn he).scalars

/-- The check in the transaction returns what it finds while the finding is pending. -/
theorem repeats_commitEvidence {db : Db F} (hs : Submitted H db) {objects : S} {p : Pending F}
    {stamp : Stamp F} {args : EvidenceArgs} {stored : EvidenceObject} {finding : Finding F}
    (hphase : p.phase = .commitEvidence args stored finding) :
    Repeats H store db objects p stamp ↔ db.status? finding.findingId = some .pendingVerification ∧
      (db.EarlierFound finding.findingId p.actor args ∨
        db.LastFound finding.findingId p.actor args) := by
  rw [← hasDuplicateEvidence_iff, Repeats, advance, hphase]
  simp only [conclude_eq_returned]
  constructor
  · rintro ⟨⟨row, db', hok, -⟩, hnone⟩
    rw [hok] at hnone
    exact (repeated_of_commitEvidence hok hnone).2
  · rintro ⟨hstatus, hfound⟩
    obtain ⟨r, hr, hduplicate⟩ := List.any_eq_true.mp hfound
    have hok := commitEvidence_repeated (H := H) hduplicate (hs.scalars hr) hstatus hfound
      (evidenceId p.recordId) stored stamp
    obtain ⟨row, hrow, -⟩ := Option.map_eq_some_iff.mp hstatus
    rw [hok]
    exact ⟨⟨row, db, rfl, hrow⟩, newEvents_self db⟩

theorem Submitted.waits_iff {db : Db F} (h : Submitted H db) {k : Text} {actor : ActorContext}
    {args : EvidenceArgs} : Waits db k actor args ↔
      db.status? k = some .pendingVerification ∧ db.LastFound k actor args := by
  rw [← h.reports_iff]
  exact ⟨fun hwaits => ⟨hwaits.status, hwaits.last⟩, fun hboth => ⟨hboth.1, hboth.2⟩⟩

/-- What a step is asked for, in terms of the phase it takes. -/
theorem reportsPending_iff_repeats {s : Sys F S} (hs : Submitted H s.db) (a : Action F) :
    ReportsPending H store s a ↔ ∀ p stamp k args, s.taken a = some (p, stamp) →
      p.phase.submission? = some (k, args) → Repeats H store s.db s.objects p stamp →
      s.db.status? k = some .pendingVerification ∧ s.db.LastFound k p.actor args := by
  constructor
  · intro h p stamp k args htaken hsub hrepeats
    obtain ⟨hdb, hanswer⟩ := next_taken H store htaken
    obtain ⟨⟨finding, hreturned⟩, hnone⟩ := id hrepeats
    have hwaits := h p stamp k args finding htaken hsub ((hanswer finding).mpr hreturned)
      (by rw [hdb, hnone])
    rw [hdb, hrepeats.db_eq] at hwaits
    exact hs.waits_iff.mp hwaits
  · intro h p stamp k args finding htaken hsub hreturned hnone
    obtain ⟨hdb, hanswer⟩ := next_taken H store htaken
    rw [hdb] at hnone ⊢
    have hrepeats : Repeats H store s.db s.objects p stamp :=
      ⟨⟨finding, (hanswer finding).mp hreturned⟩, hnone⟩
    rw [hrepeats.db_eq]
    exact hs.waits_iff.mpr (h p stamp k args htaken hsub hrepeats)

/-- A check at a reachable state is about what is pending exactly when it is current. -/
theorem reportsPending_iff {s : Sys F S} (hs : Submitted H s.db) (a : Action F) :
    ReportsPending H store s a ↔ CurrentCheck s a := by
  rw [reportsPending_iff_repeats hs]
  constructor
  · intro h p stamp htaken
    cases hphase : p.phase with
    | create args upsert => trivial
    | reassess args => trivial
    | mutate change => trivial
    | persist args finding => trivial
    | duplicate args finding =>
      have hlast := h p stamp finding.findingId args htaken (by rw [hphase]; rfl)
      rw [repeats_duplicate hphase] at hlast
      rw [Phase.Current]
      split_ifs with hstatus
      · intro hearlier
        exact (hlast (.inl hearlier)).2
      · exact ⟨fun hearlier => hstatus (hlast (.inl hearlier)).1,
          fun hfound => hstatus (hlast (.inr hfound)).1⟩
    | commitEvidence args stored finding =>
      have hlast := h p stamp finding.findingId args htaken (by rw [hphase]; rfl)
      rw [repeats_commitEvidence hs hphase] at hlast
      intro hstatus hearlier
      exact (hlast ⟨hstatus, .inl hearlier⟩).2
  · intro h p stamp k args htaken hsub hrepeats
    have hcurrent := h p stamp htaken
    cases hphase : p.phase with
    | create args upsert =>
      rw [hphase] at hsub
      cases hsub
    | reassess args =>
      rw [hphase] at hsub
      cases hsub
    | mutate change =>
      rw [hphase] at hsub
      cases hsub
    | persist args finding => exact absurd hrepeats (not_repeats_persist hphase)
    | duplicate args finding =>
      rw [hphase] at hsub hcurrent
      obtain ⟨rfl, rfl⟩ := Prod.mk.inj (Option.some.inj hsub)
      rw [repeats_duplicate hphase] at hrepeats
      rw [Phase.Current] at hcurrent
      split_ifs at hcurrent with hstatus
      · exact ⟨hstatus, hrepeats.elim hcurrent id⟩
      · exact absurd hrepeats (not_or.mpr hcurrent)
    | commitEvidence args stored finding =>
      rw [hphase] at hsub hcurrent
      obtain ⟨rfl, rfl⟩ := Prod.mk.inj (Option.some.inj hsub)
      obtain ⟨hstatus, hfound⟩ := (repeats_commitEvidence hs hphase).mp hrepeats
      exact ⟨hstatus, hfound.elim (hcurrent hstatus) id⟩

/-! ### Runs -/

/-- In every run, the submissions that return without an event are all about what is pending if
and only if every check for duplicates is current. -/
theorem repeated_evidence_pending_iff (H : Digest) (store : EvidenceStore S) (objects : S)
    (actions : List (Action F)) :
    (governance H store).Along (ReportsPending H store) (Sys.init objects) actions ↔
      (governance H store).Along CurrentCheck (Sys.init objects) actions := by
  refine Machine.along_congr_of_invariant (I := fun s => Submitted H s.db) ?_
    (fun s a hs => reportsPending_iff hs a) submitted_empty actions
  intro s a _ hs
  rcases next_effect H store s a with hsame | ⟨p, stamp, -, heffect⟩
  · rw [hsame]
    exact hs
  · exact submitted_next heffect hs

/-! ### The evidence of an earlier round -/

/-- The first evidence failed and another analyst has submitted the next one; the first analyst
submits the first evidence again. -/
def submittedAgain : List (Action Tick) :=
  resubmitted ++ [.call analyst (.submitEvidence (lit "F-1") (lit "scanner") (.bytes [0x31])) (uuid 8)]

/-- The finding that an action returns to a submission that commits no event, with the actor of
the submission and the actors of the events. -/
def repeatedBy (s : Sys Tick MemoryObjects) (a : Action Tick) : Option (Text × Text × List Text) :=
  match s.taken a, governanceCore.answer s a, newEvents s.db (governanceCore.next s a).db with
  | some (p, _), .returned _, [] =>
    p.phase.submission?.map fun x => (x.1, p.actor.actorId,
      ((governanceCore.next s a).db.submittedOf x.1).map Event.actorId)
  | _, _, _ => none

theorem submittedAgain_run :
    repeatedBy (governanceCore.run governanceStart submittedAgain) (.resume 8 (stampAt 8)) =
      some (lit "F-1", analyst.actorId, [analyst.actorId, secondAnalyst.actorId]) := by
  decide +kernel

/-- What is returned so is no report on the pending evidence, if the last event is another's. -/
theorem not_reportsPending {s : Sys Tick MemoryObjects} {a : Action Tick}
    {findingId submitter last : Text} {events : List Text} (hlast : events.getLast? = some last)
    (hne : last ≠ submitter) (hrun : repeatedBy s a = some (findingId, submitter, events)) :
    ¬ ReportsPending sha256 (memoryEvidenceStore sha256) s a := by
  intro hstep
  unfold repeatedBy at hrun
  split at hrun
  · rename_i p stamp finding htaken hanswer hnone
    obtain ⟨⟨k, args⟩, hsub, hpair⟩ := Option.map_eq_some_iff.mp hrun
    obtain ⟨hk, hrest⟩ := Prod.mk.inj hpair
    obtain ⟨hactor, hevents⟩ := Prod.mk.inj hrest
    obtain ⟨e, he, hreports⟩ := (hstep p stamp k args finding htaken hsub hanswer hnone).last
    have hactors : some e.actorId = some last := by
      calc some e.actorId = (Option.map Event.actorId (some e)) := rfl
        _ = _ := congrArg (Option.map Event.actorId) he.symm
        _ = _ := List.getLast?_map.symm
        _ = _ := congrArg List.getLast? hevents
        _ = some last := hlast
    rw [hreports.actorId, hactor] at hactors
    exact hne (Option.some.inj hactors).symm
  · cases hrun

/-- The submission returns normally, although the evidence that is pending is another's. -/
theorem earlier_evidence_reported :
    ¬ governanceCore.Along (ReportsPending sha256 (memoryEvidenceStore sha256)) governanceStart
      (submittedAgain ++ [.resume 8 (stampAt 8)]) := by
  intro h
  have hstep := (Machine.along_append.mp h).2.1
  exact not_reportsPending rfl (by decide) submittedAgain_run hstep

end SentinelGRC.Governance
