import SentinelGRC.Governance.NextEvent

/-!
Operations that get to their end. In every state that a run reaches the texts kept of a
finding can be bound again, its events are chained and its queues hold them. So an operation
whose checks pass commits its rows, as long as their identities are new and no two messages
collide.
-/

namespace SentinelGRC.Governance

open Python Json Store Transition Delivery

variable {F S : Type}

/-! ### Stored texts -/

/-- The texts of a finding that later statements bind, and the owner that an action needs. -/
structure Finding.Usable (row : Finding F) : Prop where
  findingId : Scalar row.findingId
  riskOwner : Scalar row.riskOwner
  actionOwner : ∀ t ∈ row.actionOwner, Scalar t
  dueDate : ∀ t ∈ row.dueDate, Scalar t
  owned : row.status = .pendingApproval ∨ row.status = .approved → row.actionOwner.isSome

structure Usable (db : Db F) : Prop where
  rows : ∀ k row, db.findings.find? k = some row → row.Usable
  events : ∀ e ∈ db.governanceEvents.rows, Scalar e.findingId

theorem usable_empty : Usable (Db.empty : Db F) := by
  refine ⟨fun k row hrow => ?_, fun e he => ?_⟩
  · cases hrow
  · cases he

/-- The texts that the transaction of a phase binds on the way. -/
def Pending.Bound (p : Pending F) : Prop :=
  match p.phase with
  | .create args _ | .reassess args => Scalar args.riskOwner.text
  | .mutate change => ∀ t ∈ (change.mutation p.actor p.recordId).updates.texts, Scalar t
  | _ => True

variable [PyFloat F] {H : Digest} {store : EvidenceStore S}

theorem createFinding_bound {db db' : Db F} {actor : ActorContext} {args : FindingArgs}
    {stamp : Stamp F} (h : createFinding H db actor args stamp = .ok db') :
    Scalar args.riskOwner.text := by
  unfold createFinding at h
  simp only at h
  split at h
  · cases h
  · obtain ⟨u, hbind, -⟩ := bind_eq_ok.mp h
    exact bindTexts_eq_ok.mp hbind _ (by simp)

theorem reassessFinding_bound {db db' : Db F} {actor : ActorContext} {args : FindingArgs}
    {stamp : Stamp F} (h : reassessFinding H db actor args stamp = .ok db') :
    Scalar args.riskOwner.text := by
  obtain ⟨u, -, h⟩ := bind_eq_ok.mp h
  cases hrow : db.findings.find? args.findingId.text with
  | none =>
    rw [hrow] at h
    cases h
  | some row =>
    rw [hrow] at h
    simp only at h
    split_ifs at h
    · cases h
    · obtain ⟨u, hbind, -⟩ := bind_eq_ok.mp h
      exact bindTexts_eq_ok.mp hbind _ (by simp)

/-- A phase that changes the database has bound its texts. -/
theorem advance_bound (db : Db F) (objects : S) (p : Pending F) (stamp : Stamp F) :
    (advance H store db objects p stamp).1.1 = db ∨ p.Bound := by
  unfold advance Pending.Bound
  cases hphase : p.phase with
  | create args upsert =>
    simp only
    split
    · split_ifs
      · exact .inl rfl
      · exact .inl rfl
    · exact (conclude_fst db args.findingId.text (createFinding H db p.actor args stamp)).imp_right
        createFinding_bound
  | reassess args =>
    exact (conclude_fst db args.findingId.text (reassessFinding H db p.actor args stamp)).imp_right
      reassessFinding_bound
  | mutate change =>
    refine (conclude_fst db (change.mutation p.actor p.recordId).findingId
      (mutate H db p.actor (change.mutation p.actor p.recordId) stamp)).imp_right fun h => ?_
    exact (mutate_eq_ok h).2.2.2.2.1
  | duplicate args finding | persist args finding | commitEvidence args stored finding =>
    exact .inr trivial

omit [PyFloat F] in
/-- A row stays usable, whatever a phase with bound texts does to it. -/
theorem RowEffect.usable {p : Pending F} {stamp : Stamp F} {k : Text} {row? : Option (Finding F)}
    {row' : Finding F} (h : RowEffect p stamp k row? row') (hbound : p.Bound)
    (hk : row? = none → Scalar k) (hrow : ∀ row ∈ row?, row.Usable) : row'.Usable := by
  unfold Pending.Bound at hbound
  cases h with
  | same => exact hrow _ rfl
  | created args upsert phase key =>
    rw [phase] at hbound
    subst key
    refine ⟨hk rfl, hbound, fun t ht => ?_, fun t ht => ?_, fun h => ?_⟩
    · cases ht
    · cases ht
    · rcases h with h | h <;> cases h
  | reassessed args row phase key =>
    rw [phase] at hbound
    have husable := hrow row rfl
    exact ⟨husable.findingId, hbound, husable.actionOwner, husable.dueDate, husable.owned⟩
  | submitted args stored finding row phase key status =>
    have husable := hrow row rfl
    refine ⟨husable.findingId, husable.riskOwner, husable.actionOwner, husable.dueDate, fun h => ?_⟩
    rcases h with h | h <;> cases h
  | mutated change row phase key status =>
    rw [phase] at hbound
    have husable := hrow row rfl
    have hunowned (s : Status) (hs : s ≠ .pendingApproval ∧ s ≠ .approved) :
        s = .pendingApproval ∨ s = .approved → row.actionOwner.isSome = true :=
      fun h => absurd h (not_or.mpr hs)
    cases change with
    | assess likelihood impact finding =>
      exact ⟨husable.findingId, husable.riskOwner, husable.actionOwner, husable.dueDate,
        hunowned .riskAssessed ⟨by decide, by decide⟩⟩
    | propose findingId treatmentType reason actionOwner dueDate =>
      refine ⟨husable.findingId, husable.riskOwner, fun t ht => ?_, fun t ht => ?_, fun _ => rfl⟩
      · obtain rfl := Option.some.inj ht
        exact hbound _ (by simp [Change.mutation, Updates.texts])
      · have hdue : t ∈ dueDate.toList := Option.mem_toList.mpr ht
        exact hbound t (List.mem_append_right _ hdue)
    | approve decision reason finding =>
      refine ⟨husable.findingId, husable.riskOwner, husable.actionOwner, husable.dueDate, fun _ => ?_⟩
      exact husable.owned (.inl (List.mem_singleton.mp status))
    | start implementer finding =>
      exact ⟨husable.findingId, husable.riskOwner, husable.actionOwner, husable.dueDate,
        hunowned .inProgress ⟨by decide, by decide⟩⟩
    | verify passed notes finding =>
      refine ⟨husable.findingId, husable.riskOwner, husable.actionOwner, husable.dueDate, ?_⟩
      cases passed
      · exact hunowned .inProgress ⟨by decide, by decide⟩
      · exact hunowned .verified ⟨by decide, by decide⟩
    | close reason finding =>
      exact ⟨husable.findingId, husable.riskOwner, husable.actionOwner, husable.dueDate,
        hunowned .closed ⟨by decide, by decide⟩⟩

/-- The name of a finding that a phase creates was bound. -/
theorem Effect.scalar_created {db db' : Db F} {p : Pending F} {stamp : Stamp F}
    (h : Effect H db p stamp db') {k : Text} (hnone : db.findings.find? k = .none) {row' : Finding F}
    (hrow' : db'.findings.find? k = some row') : Scalar k := by
  cases h with
  | none =>
    rw [hnone] at hrow'
    cases hrow'
  | created args upsert e phase fresh findings records logged scalars =>
    rw [findings, hnone] at hrow'
    split_ifs at hrow' with hk
    obtain ⟨o, x, hrows, -, -⟩ := logged.rows
    exact hk ▸ hrows.scalars.1
  | reassessed args q e phase found identity findings records logged =>
    rw [findings, hnone] at hrow'
    cases hrow'
  | mutated change m q e phase mutation found status findings records logged readable =>
    rw [findings, hnone] at hrow'
    cases hrow'
  | submitted args stored finding q e phase found status findings records logged readable =>
    rw [findings, hnone] at hrow'
    cases hrow'

theorem Usable.next {db db' : Db F} {p : Pending F} {stamp : Stamp F} (h : Usable db)
    (heffect : Effect H db p stamp db') (hbound : p.Bound) : Usable db' := by
  constructor
  · intro k row' hrow'
    exact (heffect.row hrow').usable hbound (fun hnone => heffect.scalar_created hnone hrow')
      fun row hrow => h.rows k row hrow
  · rcases heffect.commits with rfl | ⟨k, type, details, e, hlogged⟩
    · exact h.events
    · obtain ⟨o, x, hrows, -, -⟩ := hlogged.rows
      intro d hd
      rw [hlogged.events, List.mem_append, List.mem_singleton] at hd
      rcases hd with hd | rfl
      · exact h.events d hd
      · exact hrows.findingId ▸ hrows.scalars.1

/-! ### Reachable states -/

/-- What holds in every state that a run reaches. -/
structure Standing (H : Digest) (s : Sys F S) : Prop where
  log : LogInvariant H s.db
  mirrored : Mirrored s.db
  usable : Usable s.db

theorem standing_init (objects : S) : Standing H (Sys.init objects : Sys F S) :=
  ⟨logInvariant_empty, mirrored_empty, usable_empty⟩

theorem Standing.next {s : Sys F S} (h : Standing H s) (a : Action F) :
    Standing H ((governance H store).next s a) := by
  refine ⟨?_, (h.mirrored.core H store a).1, ?_⟩
  · rcases next_effect H store s a with hsame | ⟨p, stamp, -, heffect⟩
    · rw [hsame]
      exact h.log
    · exact logInvariant_next heffect h.log
  · cases a with
    | call actor operation recordId =>
      have hsame : ((governance H store).next s (.call actor operation recordId)).db = s.db := by
        simp only [Machine.next, governance]
        split <;> rfl
      rw [hsame]
      exact h.usable
    | crash i => exact h.usable
    | resume i stamp =>
      simp only [Machine.next, governance]
      split
      · rename_i p hp
        have hadvanced : Usable (advance H store s.db s.objects p stamp).1.1 := by
          rcases advance_bound s.db s.objects p stamp with hsame | hbound
          · rw [hsame]
            exact h.usable
          · exact h.usable.next (advance_effect H store s.db s.objects p stamp) hbound
        split <;> exact hadvanced
      · exact h.usable

theorem Standing.run {s : Sys F S} (h : Standing H s) (actions : List (Action F)) :
    Standing H ((governance H store).run s actions) :=
  Machine.run_invariant (governance H store) (fun _ a hs => hs.next a) h actions

/-! ### Workflows -/

/-- The texts that a workflow binds. -/
def Workflow.bound : Workflow → List Text
  | .riskRecord row => [row.findingId, row.owner]
  | .riskTreatment row => [row.findingId, row.reason, row.proposedBy]
  | .approvalRecord row => [row.findingId, row.actorId, row.reason]
  | .actionItem _ findingId owner implementer dueDate =>
    [findingId, implementer] ++ owner.toList ++ dueDate.toList
  | .verificationRecord row => [row.findingId, row.verifierId, row.notes]
  | .closureRecord row => [row.findingId, row.closedBy, row.reason]

def Workflow.owned : Workflow → Bool
  | .actionItem _ _ owner _ _ => owner.isSome
  | _ => true

/-- The record of a workflow has a new identity; a risk record may replace that of its finding. -/
def Workflow.KeyFree (db : Db F) : Workflow → Prop
  | .riskRecord row => ∀ q ∈ db.riskRecords.rows, q.findingId ≠ row.findingId → q.riskId ≠ row.riskId
  | .riskTreatment row => (db.riskTreatments.find? row.treatmentId).isNone
  | .approvalRecord row => (db.approvalRecords.find? row.approvalId).isNone
  | .actionItem actionId _ _ _ _ => (db.actionItems.find? actionId).isNone
  | .verificationRecord row => (db.verificationRecords.find? row.verificationId).isNone
  | .closureRecord row => (db.closureRecords.find? row.closureId).isNone

theorem exists_upsertRisk {records : Unique RiskRecord RiskRecord.clash} {r : RiskRecord}
    (h : ∀ q ∈ records.rows, q.findingId ≠ r.findingId → q.riskId ≠ r.riskId) :
    ∃ records', upsertRisk records r = some records' := by
  unfold upsertRisk
  split_ifs with hany hpairwise
  · exact ⟨_, rfl⟩
  · refine absurd ?_ hpairwise
    rw [List.pairwise_map]
    refine (List.pairwise_iff_forall_sublist.mpr fun {q s} hsub => ?_ : records.rows.Pairwise _)
    have hclash := List.pairwise_iff_forall_sublist.mp records.apart hsub
    have hq : q ∈ records.rows := hsub.subset (by simp)
    have hs : s ∈ records.rows := hsub.subset (by simp)
    simp only [RiskRecord.clash, Bool.or_eq_false_iff, beq_eq_false_iff_ne, ne_eq] at hclash ⊢
    split_ifs with hqr hsr hsr
    · exact absurd (hqr.trans hsr.symm) hclash.2
    · exact ⟨fun hid => h s hs hsr hid.symm, fun hid => hsr hid.symm⟩
    · exact ⟨h q hq hqr, hqr⟩
    · exact hclash
  · have hnew : ∀ q ∈ records.rows, RiskRecord.clash q r = false := by
      intro q hq
      have hfinding : q.findingId ≠ r.findingId := by
        intro heq
        exact hany (List.any_eq_true.mpr ⟨q, hq, by simp [heq]⟩)
      simp [RiskRecord.clash, hfinding, h q hq hfinding]
    exact ⟨_, dif_pos hnew⟩

theorem exists_insert? {ρ : Type} {key : ρ → Text} {t : Table ρ Text key} {r : ρ}
    (h : (t.find? (key r)).isNone) : ∃ u, inserted (t.insert? r) = .ok u := by
  cases hinsert : t.insert? r with
  | some u => exact ⟨u, rfl⟩
  | none =>
    obtain ⟨q, hq⟩ := Table.insert?_eq_none.mp hinsert
    rw [hq] at h
    cases h

omit [PyFloat F] in
theorem exists_execute {db : Db F} {w : Workflow} (hbound : ∀ t ∈ w.bound, Scalar t)
    (howned : w.owned = true) (hfree : w.KeyFree db) : ∃ db', w.execute db = .ok db' := by
  have hbind : bindTexts w.bound = .ok () := bindTexts_eq_ok.mpr hbound
  cases w with
  | riskRecord row =>
    obtain ⟨records, hrecords⟩ := exists_upsertRisk hfree
    exact ⟨_, bind_eq_ok.mpr ⟨(), hbind, bind_eq_ok.mpr ⟨records, inserted_eq_ok.mpr hrecords, rfl⟩⟩⟩
  | riskTreatment row =>
    obtain ⟨records, hrecords⟩ := exists_insert? hfree
    exact ⟨_, bind_eq_ok.mpr ⟨(), hbind, bind_eq_ok.mpr ⟨records, hrecords, rfl⟩⟩⟩
  | approvalRecord row =>
    obtain ⟨records, hrecords⟩ := exists_insert? hfree
    exact ⟨_, bind_eq_ok.mpr ⟨(), hbind, bind_eq_ok.mpr ⟨records, hrecords, rfl⟩⟩⟩
  | actionItem actionId findingId owner implementer dueDate =>
    obtain ⟨owner, rfl⟩ := Option.isSome_iff_exists.mp howned
    obtain ⟨records, hrecords⟩ := exists_insert? (t := db.actionItems)
      (r := ⟨actionId, findingId, owner, implementer, dueDate, lit "in_progress"⟩) hfree
    exact ⟨_, bind_eq_ok.mpr ⟨(), hbind, bind_eq_ok.mpr ⟨records, hrecords, rfl⟩⟩⟩
  | verificationRecord row =>
    obtain ⟨records, hrecords⟩ := exists_insert? hfree
    exact ⟨_, bind_eq_ok.mpr ⟨(), hbind, bind_eq_ok.mpr ⟨records, hrecords, rfl⟩⟩⟩
  | closureRecord row =>
    obtain ⟨records, hrecords⟩ := exists_insert? hfree
    exact ⟨_, bind_eq_ok.mpr ⟨(), hbind, bind_eq_ok.mpr ⟨records, hrecords, rfl⟩⟩⟩

/-! ### Transactions -/

theorem Standing.appendable {s : Sys F S} (h : Standing H s) : Appendable H s.db :=
  ⟨h.log.chains, h.mirrored, h.usable.events⟩

/-- The next event of a finding. -/
def Db.nextEntry (db : Db F) (k : Text) (type : EventType) (actor : ActorContext)
    (details : Fields F) (now : F) : Entry F :=
  ⟨k, type, actor, details, now, chainedHash (db.eventsOf k), nextSequence (db.eventsOf k)⟩

def ActorContext.Usable (actor : ActorContext) : Prop :=
  Scalar actor.actorId ∧ Scalar actor.authMethod

/-- A database takes the next event also when the rest of it has changed. -/
theorem Appendable.exists_nextEvent {db changed : Db F} (h : Appendable H db)
    (hevents : changed.governanceEvents = db.governanceEvents)
    (houtbox : changed.governanceOutbox = db.governanceOutbox)
    (hexports : changed.auditExports = db.auditExports) {k : Text} {type : EventType}
    {actor : ActorContext} {details : Fields F} {stamp : Stamp F}
    (hevent : Unhindered H db (db.nextEntry k type actor details stamp.now) stamp) (hk : Scalar k)
    (hactor : actor.Usable) (hdetails : Printable (.obj details)) :
    ∃ db', event H changed k type actor details stamp.now stamp = .ok db' := by
  have heventsOf : changed.eventsOf = db.eventsOf := by
    funext j
    rw [Db.eventsOf, Db.eventsOf, hevents]
  have hchanged : Appendable H changed := by
    refine ⟨heventsOf ▸ h.chains, ⟨?_, ?_⟩, hevents ▸ h.named⟩
    · rw [houtbox, hevents]
      exact h.mirrored.outbox
    · rw [hexports, hevents]
      exact h.mirrored.exports
  have hnext : IsNext changed (db.nextEntry k type actor details stamp.now) := by
    constructor <;> rw [heventsOf] <;> rfl
  have hunhindered : Unhindered H changed (db.nextEntry k type actor details stamp.now) stamp :=
    ⟨hevents ▸ hevent.eventId, houtbox ▸ hevent.outboxId, hexports ▸ hevent.exportId, hevent.number,
      hevents ▸ hevent.apart⟩
  exact exists_event hunhindered hchanged hnext rfl hk hactor hdetails

/-- A mutation whose checks pass on a row and whose texts can be bound and printed. -/
structure Mutation.Ready (m : Mutation F) (row : Finding F) : Prop where
  findingId : m.findingId = row.findingId
  status : row.status ∈ m.allowedStatuses
  updates : ∀ t ∈ m.updates.texts, Scalar t
  details : Printable (.obj m.details)
  bound : ∀ t ∈ m.workflow.bound, Scalar t
  owned : m.workflow.owned = true

/-- The transaction of a mutation that is ready commits. -/
theorem Mutation.Ready.exists_mutate {db : Db F} {m : Mutation F} {row : Finding F}
    (h : m.Ready row) (happendable : Appendable H db) (hrow : db.findings.find? m.findingId = some row)
    (husable : row.Usable) {actor : ActorContext} (hactor : actor.Usable) {stamp : Stamp F}
    (hevent : Unhindered H db (db.nextEntry m.findingId m.eventType actor m.details stamp.now) stamp)
    (hfree : m.workflow.KeyFree db) : ∃ db', mutate H db actor m stamp = .ok db' := by
  have hk : Scalar m.findingId := h.findingId ▸ husable.findingId
  let changed : Db F := { db with
    findings := db.findings.modify m.findingId (m.apply stamp.now) (m.findingId_stamped stamp) }
  have hevents : changed.governanceEvents = db.governanceEvents := rfl
  obtain ⟨mid, hmid⟩ := happendable.exists_nextEvent hevents rfl rfl hevent hk hactor h.details
  have hsame := (event_eq_ok hmid).2
  have hkeyFree : m.workflow.KeyFree mid := by
    rw [hsame]
    cases hworkflow : m.workflow <;> rw [hworkflow] at hfree <;> exact hfree
  obtain ⟨db', hdb'⟩ := exists_execute h.bound h.owned hkeyFree
  refine ⟨db', bind_eq_ok.mpr ⟨(), bindTexts_eq_ok.mpr (by simpa using hk), ?_⟩⟩
  rw [hrow]
  simp only
  rw [if_neg (not_not.mpr h.status)]
  exact bind_eq_ok.mpr ⟨(), bindTexts_eq_ok.mpr h.updates, bind_eq_ok.mpr ⟨mid, hmid, hdb'⟩⟩

/-- What a store has said about an object can be kept. -/
structure EvidenceObject.Usable (stored : EvidenceObject) : Prop where
  objectKey : Scalar stored.objectKey
  sha256 : Scalar stored.sha256
  etag : Scalar stored.etag
  sizeBytes : (natText stored.sizeBytes).length ≤ intMaxStrDigits

/-- The transaction of a submission on a finding in progress commits. -/
theorem exists_commitEvidence {db : Db F} {k : Text} {row : Finding F} (happendable : Appendable H db)
    (hrow : db.findings.find? k = some row) (husable : Scalar k) (hstatus : row.status = .inProgress)
    {actor : ActorContext} (hactor : actor.Usable) {args : EvidenceArgs} (hsource : Scalar args.source.text)
    {stored : EvidenceObject} (hstored : stored.Usable) {id : Text} {stamp : Stamp F}
    (hevent : Unhindered H db (db.nextEntry k .evidenceSubmitted actor (args.details id stored) stamp.now)
      stamp) (hfree : (db.governanceEvidence.find? id).isNone) :
    ∃ db', commitEvidence H db k actor args id stored stamp = .ok db' ∧
      db'.findings.find? k = some (submitted actor.actorId stamp.now row) := by
  obtain ⟨records, hrecords⟩ := exists_insert? (t := db.governanceEvidence)
    (r := args.row k actor id stored stamp.now) hfree
  let changed : Db F := { db with
    governanceEvidence := records
    findings := db.findings.modify k (submitted actor.actorId stamp.now) (findingId_submitted actor stamp) }
  have hprintable : Printable (.obj (args.details id stored) : Json F) := by
    simp [Printable, EvidenceArgs.details, all, allFields, allField, printableNode, hstored.sizeBytes]
  have hevents : changed.governanceEvents = db.governanceEvents := rfl
  obtain ⟨db', hdb'⟩ :=
    happendable.exists_nextEvent hevents rfl rfl hevent husable hactor hprintable
  have hchanged : db'.findings.find? k = some (submitted actor.actorId stamp.now row) := by
    rw [(event_eq_ok hdb').2, Table.find?_modify, hrow, Option.map_some, if_pos rfl]
  refine ⟨db', bind_eq_ok.mpr ⟨(), bindTexts_eq_ok.mpr (by simpa using husable), ?_⟩, hchanged⟩
  rw [hrow]
  simp only
  rw [if_neg (not_not.mpr hstatus)]
  have hbind : bindTexts [k, args.source.text, stored.sha256, actor.actorId, stored.objectKey,
      stored.etag] = .ok () := by
    rw [bindTexts_eq_ok]
    simpa using ⟨husable, hsource, hstored.sha256, hactor.1, hstored.objectKey, hstored.etag⟩
  exact bind_eq_ok.mpr ⟨(), hbind, bind_eq_ok.mpr ⟨records, hrecords, hdb'⟩⟩

/-! ### Operations -/

/-- What a phase needs from outside the core: a new identity for its record, and a store that keeps
the bytes it is given. -/
def Phase.Served (store : EvidenceStore S) (db : Db F) (objects : S) (actor : ActorContext)
    (id : Uuid) : Phase F → Prop
  | .mutate change => (change.mutation actor id).workflow.KeyFree db
  | .persist args _ =>
    ∃ stored ∈ (store.persist objects args.raw).2.toOption, stored.sha256 = args.digest
  | .commitEvidence _ stored _ =>
    (db.governanceEvidence.find? (evidenceId id)).isNone ∧ stored.Usable
  | .create _ _ | .reassess _ | .duplicate _ _ => True

/-- Nothing outside the core keeps a step from its end. -/
def Unobstructed (H : Digest) (store : EvidenceStore S) (s : Sys F S) (a : Action F) : Prop :=
  ∀ taken ∈ s.taken a,
    taken.1.phase.Served store s.db s.objects taken.1.actor taken.1.recordId ∧
      ∀ x ∈ entry? s a, Unhindered H s.db x taken.2

omit [PyFloat F] in
theorem EvidenceObject.usable_iff {stored : EvidenceObject} : stored.Usable ↔
    Scalar stored.objectKey ∧ Scalar stored.sha256 ∧ Scalar stored.etag ∧
      (natText stored.sizeBytes).length ≤ intMaxStrDigits := by
  constructor
  · intro h
    exact ⟨h.objectKey, h.sha256, h.etag, h.sizeBytes⟩
  · intro h
    exact ⟨h.1, h.2.1, h.2.2.1, h.2.2.2⟩

instance (stored : EvidenceObject) : Decidable stored.Usable :=
  decidable_of_iff _ EvidenceObject.usable_iff.symm

instance decidableKeyFree (db : Db F) : (w : Workflow) → Decidable (w.KeyFree db)
  | .riskRecord row => inferInstanceAs (Decidable
      (∀ q ∈ db.riskRecords.rows, q.findingId ≠ row.findingId → q.riskId ≠ row.riskId))
  | .riskTreatment _ | .approvalRecord _ | .actionItem _ _ _ _ _ | .verificationRecord _
  | .closureRecord _ => inferInstanceAs (Decidable (_ = true))

instance decidableServed (store : EvidenceStore S) (db : Db F) (objects : S) (actor : ActorContext)
    (id : Uuid) : (phase : Phase F) → Decidable (phase.Served store db objects actor id)
  | .mutate change => decidableKeyFree db (change.mutation actor id).workflow
  | .persist args _ => inferInstanceAs (Decidable
      (∃ stored ∈ (store.persist objects args.raw).2.toOption, stored.sha256 = args.digest))
  | .commitEvidence _ _ _ => inferInstanceAs (Decidable (_ ∧ _))
  | .create _ _ | .reassess _ | .duplicate _ _ => isTrue trivial

instance (s : Sys F S) (a : Action F) : Decidable (Unobstructed H store s a) := by
  unfold Unobstructed
  infer_instance

omit [PyFloat F] in
/-- The operation that began last takes its next phase. -/
theorem taken_last (db : Db F) (objects : S) (pending : List (Option (Pending F))) (p : Pending F)
    (stamp : Stamp F) : (⟨db, objects, pending ++ [some p]⟩ : Sys F S).taken
      (.resume pending.length stamp) = some (p, stamp) :=
  taken_eq_some.mpr ⟨_, rfl, List.getElem?_concat_length⟩

theorem next_call {s : Sys F S} {actor : ActorContext} {operation : Operation} {id : Uuid}
    {phase : Phase F} (h : begin H s.db actor operation = .ok phase) :
    (governance H store).next s (.call actor operation id) =
      ⟨s.db, s.objects, s.pending ++ [some ⟨actor, id, phase⟩]⟩ := by
  simp only [Machine.next, governance, h]

/-- An operation that ends in a mutation which is ready returns the finding it has changed. -/
theorem run_mutated {s : Sys F S} (hs : Standing H s) {actor : ActorContext} (hactor : actor.Usable)
    {operation : Operation} {id : Uuid} {stamp : Stamp F} {change : Change F} {row : Finding F}
    (hrow : s.db.findings.find? row.findingId = some row)
    (hbegin : begin H s.db actor operation = .ok (.mutate change))
    (hready : (change.mutation actor id).Ready row)
    (hpath : (governance H store).Along (Unobstructed H store) s
      [.call actor operation id, .resume s.pending.length stamp]) :
    ∃ db', (governance H store).run s [.call actor operation id, .resume s.pending.length stamp] =
        ⟨db', s.objects, s.pending ++ [none]⟩ ∧
      db'.findings.find? row.findingId = some ((change.mutation actor id).apply stamp.now row) := by
  have hcalled : (governance H store).next s (.call actor operation id) = _ := next_call hbegin
  obtain ⟨-, hresumed, -⟩ := hpath
  rw [hcalled] at hresumed
  have htaken := taken_last s.db s.objects s.pending ⟨actor, id, .mutate change⟩ stamp
  obtain ⟨hserved, hevent⟩ := hresumed _ htaken
  have hfind : s.db.findings.find? (change.mutation actor id).findingId = some row := by
    rw [hready.findingId]
    exact hrow
  have hentry : entry? ⟨s.db, s.objects, s.pending ++ [some ⟨actor, id, .mutate change⟩]⟩
      (.resume s.pending.length stamp) = some (s.db.nextEntry (change.mutation actor id).findingId
        (change.mutation actor id).eventType actor (change.mutation actor id).details stamp.now) := by
    simp only [ entry?, htaken, phaseEntry, Option.bind_eq_bind, Option.bind_some, hfind,
      hready.status, guard_true, Option.pure_def]
    rfl
  obtain ⟨db', hdb'⟩ := hready.exists_mutate hs.appendable hfind (hs.usable.rows _ _ hrow) hactor
    (hevent _ hentry) hserved
  have hchanged : db'.findings.find? row.findingId =
      some ((change.mutation actor id).apply stamp.now row) := by
    rw [(mutate_eq_ok hdb').2.1, hrow, Option.map_some, if_pos hready.findingId.symm]
  refine ⟨db', ?_, hchanged⟩
  rw [Machine.run_cons, hcalled, Machine.run_cons, Machine.run_nil]
  simp only [Machine.next, governance, List.getElem?_concat_length, advance, hdb', conclude,
    hready.findingId, hchanged, List.set_append_right _ _ (le_refl _), Nat.sub_self, List.set_cons_zero]

/-- A submission on a finding in progress stores its bytes and returns the finding. -/
theorem run_submitted {s : Sys F S} (hs : Standing H s) {actor : ActorContext} (hactor : actor.Usable)
    {operation : Operation} {id : Uuid} {stamp : Stamp F} {args : EvidenceArgs} {row : Finding F}
    (hrow : s.db.findings.find? row.findingId = some row) (hstatus : row.status = .inProgress)
    (hsource : Scalar args.source.text)
    (hbegin : begin H s.db actor operation = .ok (.persist args row))
    (hpath : (governance H store).Along (Unobstructed H store) s
      [.call actor operation id, .resume s.pending.length stamp, .resume s.pending.length stamp]) :
    ∃ db' objects, (governance H store).run s [.call actor operation id,
        .resume s.pending.length stamp, .resume s.pending.length stamp] =
        ⟨db', objects, s.pending ++ [none]⟩ ∧
      db'.findings.find? row.findingId = some (submitted actor.actorId stamp.now row) := by
  have hcalled : (governance H store).next s (.call actor operation id) = _ := next_call hbegin
  obtain ⟨-, hpersisted, hcommitted, -⟩ := hpath
  rw [hcalled] at hpersisted hcommitted
  obtain ⟨stored, hmem, hsame⟩ := (hpersisted _ (taken_last _ _ _ _ _)).1
  cases hpersist : store.persist s.objects args.raw with
  | mk objects result =>
    rw [hpersist] at hmem
    cases result with
    | error e => cases hmem
    | ok answer =>
      obtain rfl : stored = answer := (Option.some.inj hmem).symm
      have hstored : (governance H store).next
          { s with pending := s.pending ++ [some ⟨actor, id, .persist args row⟩] }
          (.resume s.pending.length stamp) =
          ⟨s.db, objects, s.pending ++ [some ⟨actor, id, .commitEvidence args stored row⟩]⟩ := by
        simp only [Machine.next, governance, List.getElem?_concat_length, advance, hpersist, hsame,
          ne_eq, not_true_eq_false, if_false, List.set_append_right _ _ (le_refl _), Nat.sub_self,
          List.set_cons_zero]
      rw [hstored] at hcommitted
      obtain ⟨⟨hfree, husable⟩, hevent⟩ := hcommitted _ (taken_last _ _ _ _ _)
      have hentry : entry? ⟨s.db, objects, s.pending ++ [some ⟨actor, id, .commitEvidence args stored row⟩]⟩
          (.resume s.pending.length stamp) = some (s.db.nextEntry row.findingId .evidenceSubmitted actor
            (args.details (evidenceId id) stored) stamp.now) := by
        simp only [ entry?, taken_last, phaseEntry, Option.bind_eq_bind, Option.bind_some, hrow, hstatus,
          guard_true, Option.pure_def]
        rfl
      obtain ⟨db', hdb', hchanged⟩ := exists_commitEvidence hs.appendable hrow (hs.usable.rows _ _ hrow).findingId
        hstatus hactor hsource husable (hevent _ hentry) hfree
      refine ⟨db', objects, ?_, hchanged⟩
      rw [Machine.run_cons, hcalled, Machine.run_cons, hstored, Machine.run_cons, Machine.run_nil]
      simp only [Machine.next, governance, List.getElem?_concat_length, advance, hdb', conclude,
        hchanged, List.set_append_right _ _ (le_refl _), Nat.sub_self, List.set_cons_zero]

end SentinelGRC.Governance
