import SentinelGRC.Governance.EventChain

/-!
The finding that an operation names. Its checks read the row of that finding alone, every
phase that follows is about it, and what a phase commits is logged under it. So operations
on other findings leave a finding and its events as they were, in every run.
-/

namespace SentinelGRC.Governance

open Python Json Store Transition

variable {F S : Type}

/-- The finding that an operation names; a creation strips the name. -/
def Operation.findingId : Operation → Text
  | .createFinding findingId .. | .upsertFinding findingId .. => strip findingId
  | .assessRisk findingId .. | .proposeTreatment findingId .. | .approveTreatment findingId ..
  | .startAction findingId .. | .submitEvidence findingId .. | .verify findingId ..
  | .close findingId .. => findingId

def Change.findingId : Change F → Text
  | .propose findingId .. => findingId
  | .assess _ _ finding | .approve _ _ finding | .start _ finding | .verify _ _ finding
  | .close _ finding => finding.findingId

@[simp] theorem Change.findingId_mutation (change : Change F) (actor : ActorContext) (id : Uuid) :
    (change.mutation actor id).findingId = change.findingId := by
  cases change <;> rfl

/-- The finding that a phase reads and writes. -/
def Phase.About (k : Text) : Phase F → Prop
  | .create args upsert => args.findingId.text = k ∧ ∀ first ∈ upsert, first.findingId.text = k
  | .reassess args => args.findingId.text = k
  | .mutate change => change.findingId = k
  | .duplicate _ finding | .persist _ finding | .commitEvidence _ _ finding => finding.findingId = k

/-! ### Reads -/

theorem findingId_of_getFinding {db : Db F} {k : Text} {finding : Finding F}
    (h : getFinding db k = .ok finding) : finding.findingId = k := by
  obtain ⟨u, -, h⟩ := bind_eq_ok.mp h
  split at h
  · rename_i row hrow
    cases h
    exact (Table.find?_eq_some.mp hrow).2
  · cases h

theorem findingId_of_checkFinding {actor : ActorContext}
    {findingId controlId assetId title riskOwner severity : Text} {args : FindingArgs}
    (h : checkFinding actor findingId controlId assetId title riskOwner severity = .ok args) :
    args.findingId.text = strip findingId := by
  obtain ⟨u, -, h⟩ := bind_eq_ok.mp h
  obtain ⟨checked, hchecked, h⟩ := bind_eq_ok.mp h
  obtain ⟨control, -, h⟩ := bind_eq_ok.mp h
  obtain ⟨asset, -, h⟩ := bind_eq_ok.mp h
  obtain ⟨titleText, -, h⟩ := bind_eq_ok.mp h
  obtain ⟨owner, -, h⟩ := bind_eq_ok.mp h
  obtain ⟨rating, -, h⟩ := bind_eq_ok.mp h
  cases h
  unfold identifier requiredText at hchecked
  split_ifs at hchecked
  cases hchecked
  rfl

/-- The checks of an operation read no other row. -/
theorem begin_congr (H : Digest) {db db' : Db F} (actor : ActorContext) (operation : Operation)
    (h : db.findings.find? operation.findingId = db'.findings.find? operation.findingId) :
    begin H db actor operation = begin H db' actor operation := by
  cases operation with
  | createFinding | upsertFinding | proposeTreatment => rfl
  | assessRisk | approveTreatment | startAction | submitEvidence | verify | close =>
    simp only [Operation.findingId] at h
    simp only [begin, getFinding, h]

/-! ### Phases -/

theorem Begun.about {H : Digest} {db : Db F} {actor : ActorContext} {operation : Operation}
    {phase : Phase F} (h : Begun H db actor operation phase) : phase.About operation.findingId := by
  cases h with
  | create checked => exact ⟨findingId_of_checkFinding checked, fun first hfirst => by cases hfirst⟩
  | upsert checked rechecked =>
    have hfirst := findingId_of_checkFinding checked
    refine ⟨?_, fun first hmem => ?_⟩
    · rw [findingId_of_checkFinding rechecked, hfirst, strip_strip]
      rfl
    · cases hmem
      exact hfirst
  | propose => rfl
  | assess found => exact findingId_of_getFinding found
  | approve found independent => exact findingId_of_getFinding found
  | start found => exact findingId_of_getFinding found
  | duplicate prepared found status => exact findingId_of_getFinding found
  | persist prepared found status => exact findingId_of_getFinding found
  | verify found independent => exact findingId_of_getFinding found
  | close found status => exact findingId_of_getFinding found

theorem Follows.about {before after : Phase F} (h : Follows before after) {k : Text}
    (hk : before.About k) : after.About k := by
  cases h with
  | reassess again args => exact hk.2 args rfl
  | commitEvidence args stored finding intact => exact hk

variable [PyFloat F] {H : Digest}

/-- What a phase leaves alone: the rows and the events of the other findings. -/
theorem Effect.frame {db db' : Db F} {p : Pending F} {stamp : Stamp F} (h : Effect H db p stamp db')
    {k j : Text} (hk : p.phase.About k) (hj : j ≠ k) :
    db'.findings.find? j = db.findings.find? j ∧ db'.eventsOf j = db.eventsOf j := by
  have hmodify {f : Finding F → Finding F} {i : Text} (hi : i = k)
      (hrows : db'.findings.find? j = (db.findings.find? j).map fun r => if j = i then f r else r) :
      db'.findings.find? j = db.findings.find? j := by
    subst hi
    rw [hrows]
    simp only [if_neg hj, Option.map_id']
  have hlog {i : Text} {type : EventType} {details : Fields F} {e : Event F} (hi : i = k)
      (hlogged : Logged H db db' i type p.actor details stamp.now e) :
      db'.eventsOf j = db.eventsOf j := by
    subst hi
    rw [hlogged.eventsOf, if_neg (Ne.symm hj), List.append_nil]
  cases h with
  | none => exact ⟨rfl, rfl⟩
  | created args upsert e phase fresh findings records logged scalars =>
    rw [phase] at hk
    refine ⟨?_, hlog hk.1 logged⟩
    rw [findings, if_neg fun he => hj (he.symm.trans hk.1)]
  | reassessed args row e phase found identity findings records logged =>
    rw [phase] at hk
    exact ⟨hmodify hk (findings j), hlog hk logged⟩
  | mutated change m row e phase mutation found status findings records logged readable =>
    rw [phase] at hk
    have hm : m.findingId = k := by rw [mutation, Change.findingId_mutation]; exact hk
    exact ⟨hmodify hm (findings j), hlog hm logged⟩
  | submitted args stored finding row e phase found status findings records logged readable =>
    rw [phase] at hk
    exact ⟨hmodify hk (findings j), hlog hk logged⟩

/-! ### Runs -/

/-- No operation under way is about the finding. -/
def Sys.Apart (s : Sys F S) (k : Text) : Prop :=
  ∀ p, some p ∈ s.pending → ∃ j, j ≠ k ∧ p.phase.About j

/-- An action that begins an operation on a finding. -/
def Action.Names (k : Text) : Action F → Prop
  | .call _ operation _ => operation.findingId = k
  | _ => False

variable {store : EvidenceStore S}

theorem Sys.Apart.next {s : Sys F S} {k : Text} (hs : s.Apart k) {a : Action F} (ha : ¬ a.Names k) :
    ((governance H store).next s a).Apart k := by
  intro p hp
  cases arises_of_next hp with
  | stays pending => exact hs p pending
  | begins begun => exact ⟨_, ha, begun.about⟩
  | goesOn taken advanced =>
    obtain ⟨j, hj, habout⟩ := hs _ (List.mem_of_getElem? taken)
    exact ⟨j, hj, (follows_of_advance advanced).about habout⟩

/-- A step of an operation on another finding. -/
theorem Sys.Apart.frame (H : Digest) (store : EvidenceStore S) {s : Sys F S} {k : Text}
    (hs : s.Apart k) (a : Action F) :
    ((governance H store).next s a).db.findings.find? k = s.db.findings.find? k ∧
      ((governance H store).next s a).db.eventsOf k = s.db.eventsOf k := by
  rcases next_effect H store s a with h | ⟨p, stamp, htaken, h⟩
  · rw [h]
    exact ⟨rfl, rfl⟩
  · obtain ⟨i, -, hp⟩ := taken_eq_some.mp htaken
    obtain ⟨j, hj, habout⟩ := hs p (List.mem_of_getElem? hp)
    exact h.frame habout hj.symm

/-- Operations on other findings leave a finding and its events as they were. -/
theorem run_frame {s : Sys F S} {k : Text} (hs : s.Apart k) {actions : List (Action F)}
    (h : ∀ a ∈ actions, ¬ a.Names k) :
    ((governance H store).run s actions).db.findings.find? k = s.db.findings.find? k ∧
      ((governance H store).run s actions).db.eventsOf k = s.db.eventsOf k := by
  have hrun := Machine.Along.run_invariant (M := governance H store) (C := fun _ a => ¬ a.Names k)
    (I := fun t : Sys F S => t.Apart k ∧ t.db.findings.find? k = s.db.findings.find? k ∧
      t.db.eventsOf k = s.db.eventsOf k) ?_ (Machine.along_of_mem s h) ⟨hs, rfl, rfl⟩
  · exact hrun.2
  · rintro t a ha ⟨hapart, hrow, hevents⟩
    obtain ⟨hrow', hevents'⟩ := hapart.frame H store a
    exact ⟨hapart.next ha, hrow'.trans hrow, hevents'.trans hevents⟩

end SentinelGRC.Governance
