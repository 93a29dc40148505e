import SentinelGRC.Governance.Effects
import SentinelGRC.Governance.Phases

/-!
Runs of the governance core. A step leaves the database as it is or takes a phase of an
operation under way, which has the effect of that phase. What one effect keeps, given
the checks its operation made when it began, holds at the end of every run.
-/

namespace SentinelGRC.Governance

open Python Json Store Transition

variable {F S : Type}

/-! ### Checks made before the transaction -/

/-- What an operation under way made sure of on the finding it read. -/
def Pending.Checked (p : Pending F) : Prop :=
  match p.phase with
  | .mutate (.approve _ _ finding) => p.actor.actorId ≠ finding.riskOwner
  | .mutate (.verify _ _ finding) =>
    finding.implementer ≠ some p.actor.actorId ∧ finding.evidenceSubmitter ≠ some p.actor.actorId
  | _ => True

variable [PyFloat F]

omit [PyFloat F] in
theorem Begun.checked {H : Digest} {db : Db F} {actor : ActorContext} {operation : Operation}
    {phase : Phase F} (h : Begun H db actor operation phase) (id : Uuid) :
    Pending.Checked ⟨actor, id, phase⟩ := by
  cases h with
  | approve found independent => exact independent
  | verify found independent => exact independent
  | _ => trivial

omit [PyFloat F] in
/-- A phase that follows another one has nothing to check any more. -/
theorem Follows.checked {before after : Phase F} (h : Follows before after) (p : Pending F) :
    Pending.Checked { p with phase := after } := by
  cases h with
  | reassess again args => trivial
  | commitEvidence args stored finding intact => trivial

/-! ### Steps -/

/-- The operation whose phase an action takes. -/
def Sys.taken (s : Sys F S) : Action F → Option (Pending F × Stamp F)
  | .resume i stamp => (s.pending[i]?).join.map fun p => (p, stamp)
  | _ => none

/-- Every operation under way made its checks. -/
def Sys.Sound (s : Sys F S) : Prop := ∀ p, some p ∈ s.pending → p.Checked

variable {H : Digest} {store : EvidenceStore S}

omit [PyFloat F] in
theorem sound_init (objects : S) : (Sys.init objects : Sys F S).Sound := by
  intro p hp
  cases hp

omit [PyFloat F] in
theorem taken_eq_some {s : Sys F S} {a : Action F} {p : Pending F} {stamp : Stamp F} :
    s.taken a = some (p, stamp) ↔ ∃ i, a = .resume i stamp ∧ s.pending[i]? = some (some p) := by
  cases a with
  | call actor operation recordId => simp [Sys.taken]
  | resume i stamp' => simp [Sys.taken, and_comm, Option.join_eq_some_iff]
  | crash i => simp [Sys.taken]

omit [PyFloat F] in
theorem Sys.Sound.checked {s : Sys F S} (hs : s.Sound) {a : Action F} {p : Pending F}
    {stamp : Stamp F} (h : s.taken a = some (p, stamp)) : p.Checked := by
  obtain ⟨i, -, hp⟩ := taken_eq_some.mp h
  exact hs p (List.mem_of_getElem? hp)

/-- A step changes the database only by the effect of the phase it takes. -/
theorem next_effect (H : Digest) (store : EvidenceStore S) (s : Sys F S) (a : Action F) :
    ((governance H store).next s a).db = s.db ∨ ∃ p stamp, s.taken a = some (p, stamp) ∧
      Effect H s.db p stamp ((governance H store).next s a).db := by
  cases a with
  | call actor operation recordId =>
    left
    simp only [Machine.next, governance]
    split <;> rfl
  | crash i => exact .inl rfl
  | resume i stamp =>
    simp only [Machine.next, governance]
    split
    · rename_i p hp
      right
      refine ⟨p, stamp, taken_eq_some.mpr ⟨i, rfl, hp⟩, ?_⟩
      have h := advance_effect H store s.db s.objects p stamp
      split <;> exact h
    · exact .inl rfl

/-- A step leaves only operations under way that made their checks. -/
theorem next_sound {s : Sys F S} (hs : s.Sound) (a : Action F) :
    ((governance H store).next s a).Sound := by
  intro p hp
  cases arises_of_next hp with
  | stays pending => exact hs p pending
  | begins begun => exact begun.checked _
  | goesOn taken advanced => exact (follows_of_advance advanced).checked _

/-- What the effects of a condition's steps keep, these steps keep. -/
theorem next_keeps {C : Sys F S → Action F → Prop} {I : Db F → Prop}
    (hstep : ∀ s a p stamp db', C s a → s.taken a = some (p, stamp) → p.Checked →
      Effect H s.db p stamp db' → I s.db → I db') (s : Sys F S) (a : Action F) (hC : C s a)
    (hs : s.Sound ∧ I s.db) : ((governance H store).next s a).Sound ∧
      I ((governance H store).next s a).db := by
  refine ⟨next_sound hs.1 a, ?_⟩
  rcases next_effect H store s a with h | ⟨p, stamp, htaken, h⟩
  · rw [h]
    exact hs.2
  · exact hstep s a p stamp _ hC htaken (hs.1.checked htaken) h hs.2

/-- What every effect keeps holds at the end of a run. -/
theorem run_keeps {I : Db F → Prop} (hempty : I Db.empty)
    (hstep : ∀ db p stamp db', p.Checked → Effect H db p stamp db' → I db → I db')
    (objects : S) (actions : List (Action F)) :
    I ((governance H store).run (Sys.init objects) actions).db := by
  refine (Machine.run_invariant (governance H store)
    (I := fun s : Sys F S => s.Sound ∧ I s.db) ?_ ⟨sound_init objects, hempty⟩ actions).2
  intro s a hs
  refine next_keeps (C := fun _ _ => True) ?_ s a trivial hs
  intro s a p stamp db' _ _ hchecked heffect hI
  exact hstep s.db p stamp db' hchecked heffect hI

/-- The events that stand in one database and not yet in an earlier one. -/
def newEvents (db db' : Db F) : List (Event F) :=
  db'.governanceEvents.rows.drop db.governanceEvents.rows.length

omit [PyFloat F] in
theorem newEvents_self (db : Db F) : newEvents db db = [] := List.drop_length

theorem Logged.newEvents_eq {db db' : Db F} {k : Text} {type : EventType} {actor : ActorContext}
    {details : Fields F} {now : F} {e : Event F} (h : Logged H db db' k type actor details now e) :
    newEvents db db' = [e] := by
  rw [newEvents, h.events, List.drop_left]

/-! ### Concrete operations -/

/-- The identity `d000...`, for a digit `d`. -/
def uuid (d : Fin 10) : Uuid where
  hex := ofChar d.val.digitChar :: List.replicate 31 (ofChar '0')
  length_eq := by simp
  isLowerHex := by
    have hdigit : ∀ d : Fin 10, isLowerHex (ofChar d.val.digitChar) = true := by decide
    intro c hc
    rcases List.mem_cons.mp hc with rfl | hc
    · exact hdigit d
    · rw [(List.mem_replicate.mp hc).2]
      decide

def stampAt (d : Fin 10) : Stamp Tick := ⟨d, d, uuid d, uuid d, uuid d⟩

theorem not_blank_oidc : blank (lit "oidc") = false := by decide

def analyst : ActorContext := ⟨lit "analyst-1", .analyst, lit "oidc", by decide, not_blank_oidc⟩

def approver : ActorContext := ⟨lit "approver-1", .approver, lit "oidc", by decide, not_blank_oidc⟩

def committee : ActorContext := ⟨lit "committee-1", .riskCommittee, lit "oidc", by decide, not_blank_oidc⟩

def secondAnalyst : ActorContext := ⟨lit "analyst-2", .analyst, lit "oidc", by decide, not_blank_oidc⟩

def createF1 : Operation :=
  .createFinding (lit "F-1") (lit "C-1") (lit "A-1") (lit "title") (lit "owner-1") (lit "high")

def assessF1 : Operation := .assessRisk (lit "F-1") (lit "high") (lit "high")

def proposeF1 (treatment : Text) : Operation :=
  .proposeTreatment (lit "F-1") treatment (lit "reason") (lit "owner-1") none

def approveF1 (decision : Text) : Operation := .approveTreatment (lit "F-1") decision (lit "reason")

def verifyF1 (passed : Bool) : Operation := .verify (lit "F-1") passed (lit "notes")

/-- The finding is reassessed, as operation number `d`, with another owner of its risk. -/
def reassigned (d : Fin 10) (riskOwner : Text) : List (Action Tick) :=
  [.call analyst (.upsertFinding (lit "F-1") (lit "C-1") (lit "A-1") (lit "title") riskOwner (lit "high"))
    (uuid d), .resume d.val (stampAt d), .resume d.val (stampAt d)]

/-- The operation that begins as number `d`, uninterrupted. -/
def performed (d : Fin 10) (actor : ActorContext) (operation : Operation) : List (Action Tick) :=
  [.call actor operation (uuid d), .resume d.val (stampAt d)]

/-- Evidence is submitted, as operation number `d`: stored, then committed. -/
def submittedEvidence (d : Fin 10) (actor : ActorContext) : List (Action Tick) :=
  [.call actor (.submitEvidence (lit "F-1") (lit "scanner") (.bytes [0x31])) (uuid d),
    .resume d.val (stampAt d), .resume d.val (stampAt d)]

/-- The core over SHA-256 and in-memory evidence. -/
def governanceCore : Machine (Sys Tick MemoryObjects) (Action Tick) (Answer Tick) :=
  governance sha256 (memoryEvidenceStore sha256)

def governanceStart : Sys Tick MemoryObjects := Sys.init Table.empty

end SentinelGRC.Governance
