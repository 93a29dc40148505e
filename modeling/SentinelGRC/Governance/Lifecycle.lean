import SentinelGRC.Governance.EventChain
import SentinelGRC.Transition.Walk

/-!
The lifecycle of a finding. `Arrow` is the documented state diagram. The commits of a
finding, in the order of its events and with the status each of them stored, are a walk
along its arrows, so a closed finding was approved, and accepted or verified on evidence.
-/

namespace SentinelGRC.Governance

open Python Store Transition

variable {F S : Type}

/-! ### The diagram -/

/-- The arrows of the documented diagram; a finding that is not there yet has no status. -/
inductive Arrow : Option Status → EventType → Option Status → Prop
  | created : Arrow none .findingCreated (some .opened)
  | assessed : Arrow (some .opened) .riskAssessed (some .riskAssessed)
  | proposed : Arrow (some .riskAssessed) .treatmentProposed (some .pendingApproval)
  | approved : Arrow (some .pendingApproval) .treatmentApproved (some .approved)
  | accepted : Arrow (some .pendingApproval) .treatmentApproved (some .accepted)
  | rejected : Arrow (some .pendingApproval) .treatmentRejected (some .riskAssessed)
  | started : Arrow (some .approved) .actionStarted (some .inProgress)
  | submitted : Arrow (some .inProgress) .evidenceSubmitted (some .pendingVerification)
  | passed : Arrow (some .pendingVerification) .verificationPassed (some .verified)
  | failed : Arrow (some .pendingVerification) .verificationFailed (some .inProgress)
  | closedVerified : Arrow (some .verified) .findingClosed (some .closed)
  | closedAccepted : Arrow (some .accepted) .findingClosed (some .closed)
  | reassessed (s : Status) : Arrow (some s) .findingReassessed (some s)

/-- Event types with the statuses they led to. -/
abbrev Trail := List (EventType × Option Status)

/-- A trail without its reassessments. -/
def Trail.steps (trail : Trail) : Trail := trail.filter fun t => t.1 ≠ .findingReassessed

/-- The treatment was approved, and its risk accepted or its last evidence verified. -/
structure Trail.ClosedProperly (trail : Trail) : Prop where
  approved : ∃ s, (EventType.treatmentApproved, s) ∈ trail
  verified : (EventType.treatmentApproved, some Status.accepted) ∈ trail ∨
    ∃ early, trail.steps = early ++ [(.evidenceSubmitted, some .pendingVerification),
      (.verificationPassed, some .verified), (.findingClosed, some .closed)]

/-- What the place that a walk has reached tells about its trail. -/
def Trail.Reaches (trail : Trail) : Option Status → Prop
  | some .approved | some .inProgress => ∃ s, (EventType.treatmentApproved, s) ∈ trail
  | some .accepted => (EventType.treatmentApproved, some Status.accepted) ∈ trail
  | some .pendingVerification => (∃ s, (EventType.treatmentApproved, s) ∈ trail) ∧
      ∃ early, trail.steps = early ++ [(.evidenceSubmitted, some .pendingVerification)]
  | some .verified => (∃ s, (EventType.treatmentApproved, s) ∈ trail) ∧
      ∃ early, trail.steps = early ++ [(.evidenceSubmitted, some .pendingVerification),
        (.verificationPassed, some .verified)]
  | some .closed => trail.ClosedProperly
  | some .rejected => False
  | _ => True

theorem Trail.steps_concat (trail : Trail) {a : EventType} (s : Option Status)
    (ha : a ≠ .findingReassessed) : Trail.steps (trail ++ [(a, s)]) = trail.steps ++ [(a, s)] := by
  simp [steps, ha]

theorem Trail.steps_reassessed (trail : Trail) (s : Option Status) :
    Trail.steps (trail ++ [(.findingReassessed, s)]) = trail.steps := by
  simp [steps]

/-- A reassessment leaves what is known of a trail as it is. -/
theorem Trail.reaches_reassessed {trail : Trail} {s : Status} (h : trail.Reaches (some s)) :
    Trail.Reaches (trail ++ [(.findingReassessed, some s)]) (some s) := by
  have hmem {p : EventType × Option Status} (hp : p ∈ trail) :
      p ∈ trail ++ [(EventType.findingReassessed, some s)] := List.mem_append_left _ hp
  cases s with
  | opened | riskAssessed | pendingApproval => trivial
  | rejected => exact h
  | approved | inProgress =>
    obtain ⟨t, ht⟩ := h
    exact ⟨t, hmem ht⟩
  | accepted => exact hmem h
  | pendingVerification | verified =>
    obtain ⟨⟨t, ht⟩, early, hearly⟩ := h
    refine ⟨⟨t, hmem ht⟩, early, ?_⟩
    rw [steps_reassessed]
    exact hearly
  | closed =>
    obtain ⟨⟨t, ht⟩, hverified⟩ := h
    refine ⟨⟨t, hmem ht⟩, ?_⟩
    rw [steps_reassessed]
    exact hverified.imp_left hmem

theorem Trail.reaches_arrow {trail : Trail} {s t : Option Status} {a : EventType}
    (harrow : Arrow s a t) (h : trail.Reaches s) : Trail.Reaches (trail ++ [(a, t)]) t := by
  have hmem {p : EventType × Option Status} (hp : p ∈ trail) : p ∈ trail ++ [(a, t)] :=
    List.mem_append_left _ hp
  cases harrow with
  | created => trivial
  | assessed => trivial
  | proposed => trivial
  | rejected => trivial
  | approved => exact ⟨some .approved, by simp⟩
  | accepted =>
    change (_, _) ∈ _
    simp
  | started =>
    obtain ⟨u, hu⟩ := h
    exact ⟨u, hmem hu⟩
  | submitted =>
    obtain ⟨u, hu⟩ := h
    exact ⟨⟨u, hmem hu⟩, trail.steps, steps_concat _ _ (by decide)⟩
  | passed =>
    obtain ⟨⟨u, hu⟩, early, hearly⟩ := h
    refine ⟨⟨u, hmem hu⟩, early, ?_⟩
    rw [steps_concat _ _ (by decide), hearly, List.append_assoc]
    rfl
  | failed =>
    obtain ⟨⟨u, hu⟩, -⟩ := h
    exact ⟨u, hmem hu⟩
  | closedVerified =>
    obtain ⟨⟨u, hu⟩, early, hearly⟩ := h
    refine ⟨⟨u, hmem hu⟩, .inr ⟨early, ?_⟩⟩
    rw [steps_concat _ _ (by decide), hearly, List.append_assoc]
    rfl
  | closedAccepted => exact ⟨⟨_, hmem h⟩, .inl (hmem h)⟩
  | reassessed s => exact reaches_reassessed h

theorem walk_reaches {trail : Trail} {s : Option Status} (h : Walk Arrow none trail s) :
    trail.Reaches s :=
  Walk.invariant trivial (fun _ _ _ _ harrow hreach => Trail.reaches_arrow harrow hreach) h

/-! ### Commits -/

/-- The status of a finding, if it is there. -/
def Db.status? (db : Db F) (k : Text) : Option Status := (db.findings.find? k).map Finding.status

theorem arrow_approved (treatment : Option Treatment) : Arrow (some .pendingApproval)
    .treatmentApproved (some (treatmentApprovalStatus .approved treatment)) := by
  rcases treatment with _ | _ | _ | _ | _
  · exact .approved
  · exact .approved
  · exact .accepted
  · exact .approved
  · exact .approved

variable [PyFloat F] {H : Digest} {store : EvidenceStore S}

/-- A commit takes an arrow of the diagram, unless the finding has the status that no arrow
leads to; every other finding keeps its status. -/
theorem Effect.arrow {db db' : Db F} {p : Pending F} {stamp : Stamp F}
    (h : Effect H db p stamp db') : db' = db ∨ ∃ k type details e,
      Logged H db db' k type p.actor details stamp.now e ∧ (∀ j, j ≠ k → db'.status? j = db.status? j) ∧
      (db.status? k ≠ some .rejected → Arrow (db.status? k) type (db'.status? k)) := by
  have hothers {k : Text} {f : Finding F → Finding F}
      (hfind : ∀ j, db'.findings.find? j = (db.findings.find? j).map fun r => if j = k then f r else r) :
      ∀ j, j ≠ k → db'.status? j = db.status? j := by
    intro j hj
    rw [Db.status?, hfind, Db.status?, Option.map_map]
    simp only [if_neg hj]
    rfl
  have hstatus {k : Text} {f : Finding F → Finding F} {row : Finding F}
      (hfind : ∀ j, db'.findings.find? j = (db.findings.find? j).map fun r => if j = k then f r else r)
      (hrow : db.findings.find? k = some row) :
      db.status? k = some row.status ∧ db'.status? k = some (f row).status := by
    refine ⟨by rw [Db.status?, hrow]; rfl, ?_⟩
    rw [Db.status?, hfind, hrow, Option.map_some, if_pos rfl]
    rfl
  cases h with
  | none => exact .inl rfl
  | created args upsert e phase fresh findings records logged scalars =>
    refine .inr ⟨_, _, _, e, logged, ?_, fun _ => ?_⟩
    · intro j hj
      rw [Db.status?, findings, if_neg (Ne.symm hj)]
      rfl
    · rw [Db.status?, fresh, Db.status?, findings, if_pos rfl]
      exact .created
  | reassessed args row e phase found identity findings records logged =>
    obtain ⟨hbefore, hafter⟩ := hstatus findings found
    refine .inr ⟨_, _, _, e, logged, hothers findings, fun _ => ?_⟩
    rw [hbefore, hafter]
    exact .reassessed _
  | submitted args stored finding row e phase found status findings records logged readable =>
    obtain ⟨hbefore, hafter⟩ := hstatus findings found
    refine .inr ⟨_, _, _, e, logged, hothers findings, fun _ => ?_⟩
    rw [hbefore, hafter, status]
    exact .submitted
  | mutated change m row e phase mutation found status findings records logged readable =>
    obtain ⟨hbefore, hafter⟩ := hstatus findings found
    refine .inr ⟨_, _, _, e, logged, hothers findings, fun hne => ?_⟩
    rw [hbefore] at hne ⊢
    rw [hafter]
    subst mutation
    cases change with
    | assess likelihood impact finding =>
      have hopened : row.status = .opened ∨ row.status = .rejected := by
        simpa [Change.mutation] using status
      rcases hopened with h | h
      · rw [h]
        exact .assessed
      · rw [h] at hne
        exact absurd rfl hne
    | propose findingId treatmentType reason actionOwner dueDate =>
      rw [List.mem_singleton.mp status]
      exact .proposed
    | approve decision reason finding =>
      rw [List.mem_singleton.mp status]
      cases decision with
      | rejected => exact .rejected
      | approved => exact arrow_approved finding.treatmentType
    | start implementer finding =>
      rw [List.mem_singleton.mp status]
      exact .started
    | verify passed notes finding =>
      rw [List.mem_singleton.mp status]
      cases passed with
      | true => exact .passed
      | false => exact .failed
    | close reason finding =>
      have hclosable : row.status = .verified ∨ row.status = .accepted := by
        simpa [Change.mutation] using status
      rcases hclosable with h | h
      · rw [h]
        exact .closedVerified
      · rw [h]
        exact .closedAccepted

/-! ### Runs -/

/-- The commits of a run: for each its finding, its event and the status it stored. -/
def recordCommit (H : Digest) (store : EvidenceStore S)
    (commits : List (Text × EventType × Option Status)) (s : Sys F S) (a : Action F) (_ : Answer F) :
    List (Text × EventType × Option Status) :=
  let db' := ((governance H store).next s a).db
  commits ++ (newEvents s.db db').map fun e => (e.findingId, e.eventType, db'.status? e.findingId)

/-- The commits of one finding. -/
def trailOf (commits : List (Text × EventType × Option Status)) (k : Text) : Trail :=
  (commits.filter fun c => c.1 = k).map Prod.snd

/-- The events of a finding follow the diagram up to its status, and it is closed properly. -/
structure Lifecycle (db : Db F) (trail : Trail) (k : Text) : Prop where
  events : (db.listEvents k).map Event.eventType = trail.map Prod.fst
  path : Walk Arrow none trail (db.status? k)
  closed : db.status? k = some .closed → trail.ClosedProperly

/-- The events of every finding, with the statuses stored, are a walk to its status. -/
def Walked (db : Db F) (commits : List (Text × EventType × Option Status)) : Prop :=
  ∀ k, (db.eventsOf k).map Event.eventType = (trailOf commits k).map Prod.fst ∧
    Walk Arrow none (trailOf commits k) (db.status? k)

theorem trailOf_concat (commits : List (Text × EventType × Option Status)) (k : Text)
    (type : EventType) (status : Option Status) (j : Text) :
    trailOf (commits ++ [(k, type, status)]) j =
      trailOf commits j ++ if k = j then [(type, status)] else [] := by
  rw [trailOf, List.filter_append]
  by_cases hk : k = j <;> simp [hk, trailOf]

theorem walked_next {db db' : Db F} {p : Pending F} {stamp : Stamp F}
    {commits : List (Text × EventType × Option Status)} (heffect : Effect H db p stamp db')
    (h : Walked db commits) : Walked db' (commits ++ (newEvents db db').map fun e =>
      (e.findingId, e.eventType, db'.status? e.findingId)) := by
  rcases heffect.arrow with rfl | ⟨k, type, details, e, hlogged, hothers, harrow⟩
  · rw [newEvents_self, List.map_nil, List.append_nil]
    exact h
  · obtain ⟨o, x, hrows, -, -⟩ := hlogged.rows
    rw [hlogged.newEvents_eq, List.map_singleton, hrows.findingId, hrows.eventType]
    intro j
    obtain ⟨hevents, hwalk⟩ := h j
    rw [hlogged.eventsOf, trailOf_concat]
    by_cases hk : k = j
    · subst hk
      simp only [if_true, List.map_append, List.map_singleton, hrows.eventType, hevents, true_and]
      refine hwalk.snoc (harrow ?_)
      intro hrejected
      have hreach := walk_reaches hwalk
      rw [hrejected] at hreach
      exact hreach
    · rw [if_neg hk, if_neg hk, List.append_nil, List.append_nil, hothers j (Ne.symm hk)]
      exact ⟨hevents, hwalk⟩

/-- In every run the events of every finding follow the diagram. -/
theorem governance_lifecycle (H : Digest) (store : EvidenceStore S) (objects : S)
    (actions : List (Action F)) (k : Text) :
    let s := ((governance H store).withHistory (recordCommit H store)).run
      (Sys.init objects, []) actions
    s.1 = (governance H store).run (Sys.init objects) actions ∧
      Lifecycle s.1.db (trailOf s.2 k) k := by
  have hrun := Machine.withHistory_run (governance H store) (recordCommit H store)
    (Sys.init objects, []) actions
  refine ⟨hrun, ?_⟩
  have hstart : Walked (Db.empty : Db F) [] := fun k => ⟨rfl, .nil⟩
  obtain ⟨hevents, hwalk⟩ := Machine.run_invariant
    ((governance H store).withHistory (recordCommit H store))
    (I := fun s : Sys F S × List (Text × EventType × Option Status) => Walked s.1.db s.2) (by
      rintro ⟨s, commits⟩ a h
      rw [Machine.withHistory_next]
      rcases next_effect H store s a with hsame | ⟨p, stamp, -, heffect⟩
      · simp only [recordCommit, hsame, newEvents_self, List.map_nil, List.append_nil]
        exact h
      · exact walked_next heffect h)
    (s := (Sys.init objects, [])) hstart actions k
  refine ⟨?_, hwalk, fun hclosed => ?_⟩
  · have hchain : LogInvariant H ((governance H store).run (Sys.init objects) actions).db :=
      run_keeps logInvariant_empty (fun _ _ _ _ _ heffect h => logInvariant_next heffect h)
        objects actions
    rw [hrun] at hevents ⊢
    rw [listEvents_eq (hchain.chains k)]
    exact hevents
  · have hreach := walk_reaches hwalk
    rw [hclosed] at hreach
    exact hreach

end SentinelGRC.Governance
