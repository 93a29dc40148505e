import SentinelGRC.Governance.Statements

/-!
Operations are all or nothing. A call commits at most once, and what it commits is one
complete transaction of the core; a call that raises before leaves every table as it was,
whichever statement failed.
-/

namespace SentinelGRC.Governance

open Python Json Store

variable {F S : Type} (faults : ℕ → Option DatabaseError) [PyFloat F] (H : Digest)

/-! ### Reads leave the database alone -/

omit [PyFloat F] in
theorem reading_selectFinding (findingId : Text) : Session.Reading (selectFinding (F := F) faults findingId) :=
  Session.reading_query _ _

omit [PyFloat F] in
theorem reading_getFindingCall (findingId : Text) :
    Session.Reading (getFindingCall (F := F) faults findingId) := by
  refine Session.reading_scope (Session.reading_bind (reading_selectFinding faults findingId) ?_)
  intro found
  cases found with
  | none => exact Session.reading_lift _
  | some finding => exact Session.reading_pure _

omit [PyFloat F] in
theorem reading_beginWith (actor : ActorContext) (operation : Operation) : Session.Reading
    (beginWith H Session.lift (getFindingCall (F := F) faults) actor operation) := by
  have hlift {α β : Type} {x : Except PyError α} {f : α → Call F β}
      (hf : ∀ a, Session.Reading (f a)) : Session.Reading (Session.lift x >>= f) :=
    Session.reading_bind (Session.reading_lift x) hf
  have hread {β : Type} {findingId : Text} {f : Finding F → Call F β}
      (hf : ∀ a, Session.Reading (f a)) :
      Session.Reading (getFindingCall faults findingId >>= f) :=
    Session.reading_bind (reading_getFindingCall faults findingId) hf
  cases operation with
  | createFinding =>
    exact hlift fun args => Session.reading_pure _
  | upsertFinding =>
    exact hlift fun args => hlift fun again => Session.reading_pure _
  | assessRisk =>
    exact hlift fun _ => hlift fun _ => hlift fun _ => hread fun _ => Session.reading_pure _
  | proposeTreatment =>
    exact hlift fun _ => hlift fun _ => hlift fun _ => hlift fun _ => hlift fun _ =>
      Session.reading_pure _
  | startAction =>
    exact hlift fun _ => hlift fun _ => hread fun _ => Session.reading_pure _
  | approveTreatment =>
    refine hlift fun _ => hlift fun _ => hread fun finding => ?_
    split_ifs
    · exact Session.reading_lift _
    · exact Session.reading_pure _
  | submitEvidence =>
    refine hlift fun _ => hlift fun _ => hread fun finding => ?_
    split_ifs
    · exact Session.reading_pure _
    · exact Session.reading_lift _
    · exact Session.reading_pure _
  | verify =>
    refine hlift fun _ => hread fun finding => ?_
    split_ifs
    · exact Session.reading_lift _
    · exact Session.reading_pure _
  | close =>
    refine hlift fun _ => hread fun finding => ?_
    split_ifs
    · exact Session.reading_lift _
    · exact Session.reading_pure _

/-! ### Statements work on the open copy -/

theorem working_eventStatements (findingId : Text) (eventType : EventType) (actor : ActorContext)
    (details : Fields F) (now : F) (stamp : Stamp F) : Session.Working
    (eventStatements faults H findingId eventType actor details now stamp) := by
  have hquery {α β : Type} {q : Db F → Except PyError α} {f : α → Call F β}
      (hf : ∀ a, Session.Working (f a)) : Session.Working (Session.query (raising faults) q >>= f) :=
    Session.working_bind (Session.reading_query _ q).working hf
  have hlift {α β : Type} {x : Except PyError α} {f : α → Call F β}
      (hf : ∀ a, Session.Working (f a)) : Session.Working (Session.lift x >>= f) :=
    Session.working_bind (Session.reading_lift x).working hf
  have hexecute {β : Type} {q : Db F → Except PyError (Unit × Db F)} {f : Unit → Call F β}
      (hf : ∀ a, Session.Working (f a)) : Session.Working (Session.execute (raising faults) q >>= f) :=
    Session.working_bind (Session.working_execute _ q) hf
  exact hquery fun _ => hquery fun _ => hlift fun _ => hlift fun _ => hexecute fun _ =>
    hlift fun _ => hexecute fun _ => Session.working_execute _ _

theorem inside_mutateStatements (actor : ActorContext) (m : Mutation F) (stamp : Stamp F) :
    Session.Inside (mutateStatements faults H actor m stamp) := by
  refine Session.inside_bind (reading_selectFinding faults m.findingId).working.inside fun found => ?_
  cases found with
  | none => exact Session.inside_abort _ _
  | some row =>
    simp only
    split_ifs
    · refine (Session.working_bind (Session.working_execute _ _) fun _ => ?_).inside
      refine Session.working_bind (working_eventStatements faults H _ _ _ _ _ _) fun _ => ?_
      exact Session.working_execute _ _
    · exact Session.inside_abort _ _

theorem inside_createStatements (actor : ActorContext) (args : FindingArgs) (stamp : Stamp F) :
    Session.Inside (createStatements faults H actor args stamp) := by
  refine Session.inside_handle (Session.working_bind (Session.working_execute _ _) fun _ =>
    working_eventStatements faults H _ _ _ _ _ _) fun e => ?_
  cases e with
  | integrityError => exact Session.inside_abort _ _
  | _ => exact (Session.reading_lift _).working.inside

theorem inside_reassessStatements (actor : ActorContext) (args : FindingArgs) (stamp : Stamp F) :
    Session.Inside (reassessStatements faults H actor args stamp) := by
  refine Session.inside_bind (reading_selectFinding faults _).working.inside fun found => ?_
  cases found with
  | none => exact Session.inside_abort _ _
  | some row =>
    simp only
    split_ifs
    · exact Session.inside_abort _ _
    · exact (Session.working_bind (Session.working_execute _ _) fun _ =>
        working_eventStatements faults H _ _ _ _ _ _).inside

theorem inside_evidenceStatements (findingId : Text) (actor : ActorContext) (args : EvidenceArgs)
    (evidenceId : Text) (stored : EvidenceObject) (stamp : Stamp F) :
    Session.Inside (evidenceStatements faults H findingId actor args evidenceId stored stamp) := by
  refine Session.inside_bind (reading_selectFinding faults findingId).working.inside fun found => ?_
  cases found with
  | none => exact Session.inside_abort _ _
  | some row =>
    simp only
    split_ifs
    · refine Session.inside_bind (Session.reading_query _ _).working.inside fun existing => ?_
      split_ifs
      · exact (Session.reading_pure _).working.inside
      · exact Session.inside_abort _ _
    · refine (Session.working_bind (Session.working_execute _ _) fun _ => ?_).inside
      refine Session.working_bind (Session.working_execute _ _) fun _ => ?_
      exact Session.working_bind (working_eventStatements faults H _ _ _ _ _ _) fun _ =>
        (Session.reading_pure _).working

/-! ### What the statements leave in the copy -/

variable {faults} {H}

omit [PyFloat F] in
theorem selectFinding_eq_ok {findingId : Text} {c c' : Connection (Db F)} {db : Db F}
    {found : Option (Finding F)} (hc : c.transaction = some db)
    (h : selectFinding faults findingId c = (.ok found, c')) :
    bindTexts [findingId] = .ok () ∧ db.findings.find? findingId = found ∧
      c'.transaction = some db := by
  obtain ⟨hfound, hc'⟩ := Session.query_eq_ok hc h
  obtain ⟨u, hbind, hfound⟩ := bind_eq_ok.mp hfound
  cases hfound
  exact ⟨hbind, rfl, hc'⟩

omit [PyFloat F] in
theorem abort_ne_ok {α : Type} {e : PyError} {c c' : Connection (Db F)} {a : α} :
    abort faults e c ≠ (.ok a, c') := by
  intro h
  obtain ⟨u, c₁, -, h⟩ := Session.bind_eq_ok.mp h
  cases h

/-- The statements of `_event` do what `event` does to the copy. -/
theorem eventStatements_eq_ok {findingId : Text} {eventType : EventType} {actor : ActorContext}
    {details : Fields F} {now : F} {stamp : Stamp F} {c c' : Connection (Db F)} {db : Db F} {u : Unit}
    (hc : c.transaction = some db)
    (h : eventStatements faults H findingId eventType actor details now stamp c = (.ok u, c')) :
    ∃ db', event H db findingId eventType actor details now stamp = .ok db' ∧
      c'.transaction = some db' := by
  unfold eventStatements at h
  obtain ⟨previousHash, c₁, hprevious, h₁⟩ := Session.bind_eq_ok.mp h
  obtain ⟨hprevious, hc₁⟩ := Session.query_eq_ok hc hprevious
  obtain ⟨_, -, hprevious⟩ := bind_eq_ok.mp hprevious
  obtain ⟨eventSequence, c₂, hsequence, h₂⟩ := Session.bind_eq_ok.mp h₁
  obtain ⟨hsequence, hc₂⟩ := Session.query_eq_ok hc₁ hsequence
  obtain ⟨_, -, hsequence⟩ := bind_eq_ok.mp hsequence
  obtain ⟨eventHash, c₃, hhash, h₃⟩ := Session.bind_eq_ok.mp h₂
  obtain ⟨hhash, hc₃⟩ := Session.lift_eq_ok hc₂ hhash
  obtain ⟨detailsJson, c₄, hdetails, h₄⟩ := Session.bind_eq_ok.mp h₃
  obtain ⟨hdetails, hc₄⟩ := Session.lift_eq_ok hc₃ hdetails
  obtain ⟨_, c₅, hevents, h₅⟩ := Session.bind_eq_ok.mp h₄
  obtain ⟨db₁, hevents, hc₅⟩ := Session.execute_eq_ok hc₄ hevents
  obtain ⟨_, hbind, hevents⟩ := bind_eq_ok.mp hevents
  obtain ⟨events, hevent, hdb₁⟩ := bind_eq_ok.mp hevents
  obtain ⟨payloadJson, c₆, hpayload, h₆⟩ := Session.bind_eq_ok.mp h₅
  obtain ⟨hpayload, hc₆⟩ := Session.lift_eq_ok hc₅ hpayload
  obtain ⟨_, c₇, houtbox, h₇⟩ := Session.bind_eq_ok.mp h₆
  obtain ⟨db₂, houtbox, hc₇⟩ := Session.execute_eq_ok hc₆ houtbox
  obtain ⟨outbox, hout, hdb₂⟩ := bind_eq_ok.mp houtbox
  obtain ⟨db₃, hexports, hc₈⟩ := Session.execute_eq_ok hc₇ h₇
  obtain ⟨exports, hexport, hdb₃⟩ := bind_eq_ok.mp hexports
  cases hprevious
  cases hsequence
  cases hdb₁
  cases hdb₂
  cases hdb₃
  refine ⟨_, ?_, hc₈⟩
  unfold event
  refine bind_eq_ok.mpr ⟨eventHash, hhash, ?_⟩
  refine bind_eq_ok.mpr ⟨detailsJson, hdetails, ?_⟩
  refine bind_eq_ok.mpr ⟨_, hbind, ?_⟩
  refine bind_eq_ok.mpr ⟨events, hevent, ?_⟩
  refine bind_eq_ok.mpr ⟨payloadJson, hpayload, ?_⟩
  refine bind_eq_ok.mpr ⟨outbox, hout, ?_⟩
  exact bind_eq_ok.mpr ⟨exports, hexport, rfl⟩

theorem mutateStatements_eq_ok {actor : ActorContext} {m : Mutation F} {stamp : Stamp F}
    {c c' : Connection (Db F)} {db : Db F} {u : Unit} (hc : c.transaction = some db)
    (h : mutateStatements faults H actor m stamp c = (.ok u, c')) :
    ∃ db', mutate H db actor m stamp = .ok db' ∧ c'.transaction = some db' := by
  unfold mutateStatements at h
  obtain ⟨found, c₁, hselect, h⟩ := Session.bind_eq_ok.mp h
  obtain ⟨hkey, hfound, hc⟩ := selectFinding_eq_ok hc hselect
  cases found with
  | none => exact absurd h abort_ne_ok
  | some row =>
    simp only at h
    by_cases hstatus : row.status ∉ m.allowedStatuses
    · rw [if_pos hstatus] at h
      exact absurd h abort_ne_ok
    · rw [if_neg hstatus] at h
      obtain ⟨_, c₂, hupdate, h⟩ := Session.bind_eq_ok.mp h
      obtain ⟨db₁, hupdate, hc⟩ := Session.execute_eq_ok hc hupdate
      obtain ⟨_, hbind, hupdate⟩ := bind_eq_ok.mp hupdate
      cases hupdate
      obtain ⟨_, c₃, hevent, h⟩ := Session.bind_eq_ok.mp h
      obtain ⟨db₂, hevent, hc⟩ := eventStatements_eq_ok hc hevent
      obtain ⟨db₃, hworkflow, hc⟩ := Session.execute_eq_ok hc h
      obtain ⟨db₄, hexecute, hworkflow⟩ := bind_eq_ok.mp hworkflow
      cases hworkflow
      refine ⟨_, ?_, hc⟩
      unfold mutate
      refine bind_eq_ok.mpr ⟨_, hkey, ?_⟩
      rw [hfound]
      simp only
      rw [if_neg hstatus]
      refine bind_eq_ok.mpr ⟨_, hbind, ?_⟩
      exact bind_eq_ok.mpr ⟨_, hevent, hexecute⟩

theorem createStatements_eq_ok {actor : ActorContext} {args : FindingArgs} {stamp : Stamp F}
    {c c' : Connection (Db F)} {db : Db F} {u : Unit} (hc : c.transaction = some db)
    (h : createStatements faults H actor args stamp c = (.ok u, c')) :
    ∃ db', createFinding H db actor args stamp = .ok db' ∧ c'.transaction = some db' := by
  unfold createStatements Session.handle at h
  split at h
  · rename_i a c₁ hbody
    cases h
    obtain ⟨_, c₂, hinsert, h⟩ := Session.bind_eq_ok.mp hbody
    obtain ⟨db₁, hinsert, hc⟩ := Session.execute_eq_ok hc hinsert
    obtain ⟨_, hbind, hinsert⟩ := bind_eq_ok.mp hinsert
    obtain ⟨findings, hrow, hinsert⟩ := bind_eq_ok.mp hinsert
    cases hinsert
    obtain ⟨db', hevent, hc⟩ := eventStatements_eq_ok hc h
    refine ⟨db', ?_, hc⟩
    have hattempt : (do
        bindTexts [args.findingId.text, args.controlId.text, args.assetId.text, args.title.text,
          args.riskOwner.text]
        let findings ← inserted (db.findings.insert? (args.row stamp))
        event H { db with findings } args.findingId.text .findingCreated actor args.details stamp.now
          stamp) = .ok db' :=
      bind_eq_ok.mpr ⟨_, hbind, bind_eq_ok.mpr ⟨findings, hrow, hevent⟩⟩
    unfold createFinding
    simp only
    rw [hattempt]
  · rename_i e c₁ hbody
    cases e with
    | integrityError => exact absurd h abort_ne_ok
    | _ => cases h

theorem reassessStatements_eq_ok {actor : ActorContext} {args : FindingArgs} {stamp : Stamp F}
    {c c' : Connection (Db F)} {db : Db F} {u : Unit} (hc : c.transaction = some db)
    (h : reassessStatements faults H actor args stamp c = (.ok u, c')) :
    ∃ db', reassessFinding H db actor args stamp = .ok db' ∧ c'.transaction = some db' := by
  unfold reassessStatements at h
  obtain ⟨found, c₁, hselect, h⟩ := Session.bind_eq_ok.mp h
  obtain ⟨hkey, hfound, hc⟩ := selectFinding_eq_ok hc hselect
  cases found with
  | none => exact absurd h abort_ne_ok
  | some row =>
    simp only at h
    by_cases hid : row.controlId ≠ args.controlId.text ∨ row.assetId ≠ args.assetId.text
    · rw [if_pos hid] at h
      exact absurd h abort_ne_ok
    · rw [if_neg hid] at h
      obtain ⟨_, c₂, hupdate, h⟩ := Session.bind_eq_ok.mp h
      obtain ⟨db₁, hupdate, hc⟩ := Session.execute_eq_ok hc hupdate
      obtain ⟨_, hbind, hupdate⟩ := bind_eq_ok.mp hupdate
      cases hupdate
      obtain ⟨db', hevent, hc⟩ := eventStatements_eq_ok hc h
      refine ⟨db', ?_, hc⟩
      unfold reassessFinding
      refine bind_eq_ok.mpr ⟨_, hkey, ?_⟩
      rw [hfound]
      simp only
      rw [if_neg hid]
      exact bind_eq_ok.mpr ⟨_, hbind, hevent⟩

theorem evidenceStatements_eq_ok {findingId : Text} {actor : ActorContext} {args : EvidenceArgs}
    {evidenceId : Text} {stored : EvidenceObject} {stamp : Stamp F} {c c' : Connection (Db F)}
    {db : Db F} {duplicate : Bool} (hc : c.transaction = some db)
    (h : evidenceStatements faults H findingId actor args evidenceId stored stamp c =
      (.ok duplicate, c')) :
    ∃ db', commitEvidence H db findingId actor args evidenceId stored stamp = .ok db' ∧
      c'.transaction = some db' := by
  unfold evidenceStatements at h
  obtain ⟨found, c₁, hselect, h⟩ := Session.bind_eq_ok.mp h
  obtain ⟨hkey, hfound, hc⟩ := selectFinding_eq_ok hc hselect
  cases found with
  | none => exact absurd h abort_ne_ok
  | some row =>
    simp only at h
    by_cases hstatus : row.status ≠ .inProgress
    · rw [if_pos hstatus] at h
      obtain ⟨existing, c₂, hquery, h⟩ := Session.bind_eq_ok.mp h
      obtain ⟨hquery, hc⟩ := Session.query_eq_ok hc hquery
      obtain ⟨_, hbind, hquery⟩ := bind_eq_ok.mp hquery
      cases hquery
      split_ifs at h with hthere
      · cases h
        refine ⟨db, ?_, hc⟩
        unfold commitEvidence
        refine bind_eq_ok.mpr ⟨_, hkey, ?_⟩
        rw [hfound]
        simp only
        rw [if_pos hstatus]
        refine bind_eq_ok.mpr ⟨_, hbind, ?_⟩
        rw [if_pos hthere]
        rfl
      · exact absurd h abort_ne_ok
    · rw [if_neg hstatus] at h
      obtain ⟨_, c₂, hinsert, h⟩ := Session.bind_eq_ok.mp h
      obtain ⟨db₁, hinsert, hc⟩ := Session.execute_eq_ok hc hinsert
      obtain ⟨_, hbind, hinsert⟩ := bind_eq_ok.mp hinsert
      obtain ⟨evidence, hrow, hinsert⟩ := bind_eq_ok.mp hinsert
      cases hinsert
      obtain ⟨_, c₃, hupdate, h⟩ := Session.bind_eq_ok.mp h
      obtain ⟨db₂, hupdate, hc⟩ := Session.execute_eq_ok hc hupdate
      cases hupdate
      obtain ⟨_, c₄, hlog, hend⟩ := Session.bind_eq_ok.mp h
      obtain ⟨db', hevent, hc⟩ := eventStatements_eq_ok hc hlog
      cases hend
      refine ⟨db', ?_, hc⟩
      unfold commitEvidence
      refine bind_eq_ok.mpr ⟨_, hkey, ?_⟩
      rw [hfound]
      simp only
      rw [if_neg hstatus]
      refine bind_eq_ok.mpr ⟨_, hbind, ?_⟩
      exact bind_eq_ok.mpr ⟨evidence, hrow, hevent⟩

/-! ### Transactions -/

variable {store : EvidenceStore S}

/-- One complete transaction of the core, for an operation of an actor. -/
def Completes (H : Digest) (actor : ActorContext) (id : Uuid) (db db' : Db F) : Prop :=
  (∃ args stamp, createFinding H db actor args stamp = .ok db') ∨
  (∃ args stamp, reassessFinding H db actor args stamp = .ok db') ∨
  (∃ change stamp, mutate H db actor (Change.mutation actor id change) stamp = .ok db') ∨
  (∃ findingId args stored stamp,
    commitEvidence H db findingId actor args (evidenceId id) stored stamp = .ok db')

theorem atomic_createCall (faults : ℕ → Option DatabaseError) (actor : ActorContext)
    (args : FindingArgs) (stamp : Stamp F) (id : Uuid) :
    Session.Atomic (Completes H actor id) (createCall faults H actor args stamp) := by
  refine Session.Atomic.bind_reading (Session.atomic_transaction (raising faults)
    (inside_createStatements faults H actor args stamp)
    (fun _ => Session.ending_commit (raising faults)) ?_)
    fun _ => reading_getFindingCall faults args.findingId.text
  intro c c' db db' u hc hout hc'
  obtain ⟨db₁, hcreate, hdb₁⟩ := createStatements_eq_ok hc hout
  obtain rfl : db₁ = db' := Option.some.inj (hdb₁.symm.trans hc')
  exact .inl ⟨args, stamp, hcreate⟩

theorem atomic_reassessCall (faults : ℕ → Option DatabaseError) (actor : ActorContext)
    (args : FindingArgs) (stamp : Stamp F) (id : Uuid) :
    Session.Atomic (Completes H actor id) (reassessCall faults H actor args stamp) := by
  refine Session.Atomic.bind_reading (Session.atomic_transaction (raising faults)
    (inside_reassessStatements faults H actor args stamp)
    (fun _ => Session.ending_commit (raising faults)) ?_)
    fun _ => reading_getFindingCall faults args.findingId.text
  intro c c' db db' u hc hout hc'
  obtain ⟨db₁, hreassess, hdb₁⟩ := reassessStatements_eq_ok hc hout
  obtain rfl : db₁ = db' := Option.some.inj (hdb₁.symm.trans hc')
  exact .inr (.inl ⟨args, stamp, hreassess⟩)

theorem atomic_mutateCall (faults : ℕ → Option DatabaseError) (actor : ActorContext)
    (change : Change F) (id : Uuid) (stamp : Stamp F) :
    Session.Atomic (Completes H actor id)
      (mutateCall faults H actor (change.mutation actor id) stamp) := by
  refine Session.atomic_transaction (raising faults)
    (inside_mutateStatements faults H actor _ stamp)
    (fun _ => (Session.ending_commit (raising faults)).bind_reading
      fun _ => reading_getFindingCall faults _) ?_
  intro c c' db db' u hc hout hc'
  obtain ⟨db₁, hmutate, hdb₁⟩ := mutateStatements_eq_ok hc hout
  obtain rfl : db₁ = db' := Option.some.inj (hdb₁.symm.trans hc')
  exact .inr (.inr (.inl ⟨change, stamp, hmutate⟩))

theorem atomic_commitEvidenceCall (faults : ℕ → Option DatabaseError) (findingId : Text)
    (actor : ActorContext) (args : EvidenceArgs) (id : Uuid) (stored : EvidenceObject)
    (stamp : Stamp F) : Session.Atomic (Completes H actor id)
      (commitEvidenceCall faults H findingId actor args (evidenceId id) stored stamp) := by
  refine Session.atomic_transaction (raising faults)
    (inside_evidenceStatements faults H findingId actor args (evidenceId id) stored stamp) ?_ ?_
  · intro duplicate
    split_ifs
    · exact (Session.ending_rollback (raising faults)).bind_reading fun _ =>
        Session.reading_bind (reading_getFindingCall faults findingId) fun _ => Session.reading_pure _
    · exact (Session.ending_commit (raising faults)).bind_reading fun _ => Session.reading_pure _
  · intro c c' db db' duplicate hc hout hc'
    obtain ⟨db₁, hcommit, hdb₁⟩ := evidenceStatements_eq_ok hc hout
    obtain rfl : db₁ = db' := Option.some.inj (hdb₁.symm.trans hc')
    exact .inr (.inr (.inr ⟨findingId, args, stored, stamp, hcommit⟩))

/-! ### Failures of a creation -/

omit [PyFloat F] in
theorem selectFinding_ne_valueError {findingId message : Text} {c : Connection (Db F)} :
    (selectFinding faults findingId c).1 ≠ .error (.valueError message) := by
  intro h
  rcases Session.query_eq_error h with ⟨n, hn⟩ | ⟨db, hdb⟩
  · obtain ⟨e, -, he⟩ := Option.map_eq_some_iff.mp hn
    cases e <;> cases he
  · unfold bindTexts at hdb
    split_ifs at hdb <;> cases hdb

omit [PyFloat F] in
theorem getFindingCall_ne_valueError {findingId message : Text} {c : Connection (Db F)} :
    (getFindingCall faults findingId c).1 ≠ .error (.valueError message) := by
  intro h
  unfold getFindingCall Session.scope at h
  simp only [Session.bind_eq] at h
  have hselect : (selectFinding faults findingId { c with transaction := none }).1 ≠
      .error (.valueError message) := selectFinding_ne_valueError
  rcases hout : selectFinding faults findingId { c with transaction := none } with ⟨e | found, c₁⟩
  · rw [hout] at h hselect
    cases h
    exact hselect rfl
  · rw [hout] at h
    cases found <;> cases h

/-- A creation that raises a `ValueError` has committed nothing. -/
theorem createCall_valueError {actor : ActorContext} {args : FindingArgs} {stamp : Stamp F}
    {c : Connection (Db F)} {message : Text}
    (h : (createCall faults H actor args stamp c).1 = .error (.valueError message)) :
    (createCall faults H actor args stamp c).2.commits = c.commits := by
  have herror := Session.transaction_error (raising faults) (c := c)
    (inside_createStatements faults H actor args stamp) (e := .valueError message)
  unfold createCall at h ⊢
  rw [Session.bind_eq] at h ⊢
  generalize Session.scope _ c = out at h herror ⊢
  rcases out with ⟨e | u, c₁⟩
  · cases h
    exact herror rfl
  · exact absurd h getFindingCall_ne_valueError

/-! ### Operations -/

theorem atomic_upsertCall (faults : ℕ → Option DatabaseError) (actor : ActorContext)
    (again args : FindingArgs) (stamp later : Stamp F) (id : Uuid) :
    Session.Atomic (Completes H actor id) (upsertCall faults H actor again args stamp later) := by
  refine Session.Atomic.handle (atomic_createCall faults actor again stamp id) fun e => ?_
  have hraise (e : PyError) : Session.Reading (Session.raise e : Call F (Finding F)) :=
    Session.reading_lift _
  cases e with
  | valueError message =>
    constructor
    · simp only
      split_ifs
      · exact atomic_reassessCall faults actor args later id
      · exact (hraise _).atomic
    · intro c _ h
      exact .inl (createCall_valueError h)
  | _ => exact ⟨(hraise _).atomic, fun _ _ _ => .inr (hraise _)⟩

theorem atomic_submitCall (faults : ℕ → Option DatabaseError) (actor : ActorContext) (id : Uuid)
    (args : EvidenceArgs) (stored : EvidenceObject) (finding : Finding F) (stamp : Stamp F) :
    Session.Atomic (Completes H actor id) (submitCall faults H actor id args stored finding stamp) := by
  refine Session.Atomic.bind_reading (atomic_commitEvidenceCall faults _ _ _ _ _ _) fun duplicate => ?_
  cases duplicate with
  | some row => exact Session.reading_pure _
  | none => exact reading_getFindingCall faults _

theorem atomic_finishCall (faults : ℕ → Option DatabaseError) (objects : S) (actor : ActorContext)
    (id : Uuid) (stamp later : Stamp F) (phase : Phase F) : Session.Atomic (Completes H actor id)
      (finishCall faults H store objects actor id stamp later phase) := by
  cases phase with
  | create again upsert =>
    cases upsert with
    | none => exact atomic_createCall faults actor again stamp id
    | some args => exact atomic_upsertCall faults actor again args stamp later id
  | reassess args => exact atomic_reassessCall faults actor args stamp id
  | mutate change => exact atomic_mutateCall faults actor change id stamp
  | duplicate args finding =>
    refine (Session.reading_bind (Session.reading_scope (Session.reading_query _ _)) ?_).atomic
    intro existing
    split_ifs
    · exact Session.reading_pure _
    · exact Session.reading_lift _
  | persist args finding =>
    refine Session.atomic_bind_reading (Session.reading_lift _) fun stored => ?_
    split_ifs
    · exact (Session.reading_lift _).atomic
    · exact atomic_submitCall faults actor id args stored finding stamp
  | commitEvidence args stored finding => exact atomic_submitCall faults actor id args stored finding stamp

/-- A call commits nothing and leaves every table as it was, or commits one complete transaction. -/
theorem operationCall_atomic (H : Digest) (store : EvidenceStore S) (faults : ℕ → Option DatabaseError)
    (db : Db F) (objects : S) (actor : ActorContext) (operation : Operation) (id : Uuid)
    (stamp later : Stamp F) :
    let after := (operationCall faults H store objects actor operation id stamp later
      (Connection.fresh db)).2
    (after.commits = 0 ∧ after.durable = db) ∨
      (after.commits = 1 ∧ Completes H actor id db after.durable) := by
  have hatomic : Session.Atomic (Completes H actor id)
      (operationCall faults H store objects actor operation id stamp later) :=
    Session.atomic_bind_reading (reading_beginWith faults H actor operation)
      fun phase => atomic_finishCall faults objects actor id stamp later phase
  exact (hatomic (Connection.fresh db) rfl).2

end SentinelGRC.Governance
