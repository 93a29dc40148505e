import SentinelGRC.Governance.Effects

/-!
`upsert_finding` as its callers see it when nothing happens between its transactions.
It is the run of its phases one after the other.
-/

namespace SentinelGRC.Governance

open Python Json Store Transition

variable {F S : Type}

/-- The finding that a transaction leaves, or what it raised. -/
def concluded (db : Db F) (findingId : Text) :
    Except PyError (Db F) → Db F × Except PyError (Finding F)
  | .ok db' =>
    (db', match db'.findings.find? findingId with
      | some row => .ok row
      | none => .error (notFound findingId))
  | .error e => (db, .error e)

/-- The checks of `upsert_finding`, and those of the `create_finding` it calls. -/
def checkUpsert (actor : ActorContext)
    (findingId controlId assetId title riskOwner severity : Text) :
    Except PyError (FindingArgs × FindingArgs) := do
  let args ← checkFinding actor findingId controlId assetId title riskOwner severity
  let again ← checkFinding actor args.findingId.text args.controlId.text args.assetId.text
    args.title.text args.riskOwner.text args.severity.text
  return (args, again)

variable [PyFloat F]

/-- The part of `upsert_finding` after its checks. -/
def upsertChecked (H : Digest) (db : Db F) (actor : ActorContext) (args again : FindingArgs)
    (stamp later : Stamp F) : Db F × Except PyError (Finding F) :=
  match createFinding H db actor again stamp with
  | .error (.valueError message) =>
    if lit "already exists" <:+: message then
      concluded db args.findingId.text (reassessFinding H db actor args later)
    else (db, .error (.valueError message))
  | outcome => concluded db again.findingId.text outcome

/-- `upsert_finding`. -/
def upsertFinding (H : Digest) (db : Db F) (actor : ActorContext)
    (findingId controlId assetId title riskOwner severity : Text) (stamp later : Stamp F) :
    Db F × Except PyError (Finding F) :=
  match checkUpsert actor findingId controlId assetId title riskOwner severity with
  | .error e => (db, .error e)
  | .ok (args, again) => upsertChecked H db actor args again stamp later

omit [PyFloat F] in
theorem conclude_eq (db : Db F) (findingId : Text) (outcome : Except PyError (Db F)) :
    conclude db findingId outcome = ((concluded db findingId outcome).1,
      match (concluded db findingId outcome).2 with
      | .ok row => .returned row
      | .error e => .raised e) := by
  unfold conclude concluded
  cases outcome with
  | error e => rfl
  | ok db' =>
    simp only
    cases db'.findings.find? findingId <;> rfl

/-- A phase that ends its operation. -/
theorem next_ended (H : Digest) (store : EvidenceStore S) (db : Db F) (objects : S) (p : Pending F)
    (stamp : Stamp F) (k : Text) (outcome : Except PyError (Db F))
    (h : advance H store db objects p stamp =
      (((conclude db k outcome).1, objects), (conclude db k outcome).2)) :
    (governance H store).next ⟨db, objects, [some p]⟩ (.resume 0 stamp) =
      ⟨(concluded db k outcome).1, objects, [none]⟩ := by
  rw [conclude_eq] at h
  unfold Machine.next governance
  simp only [List.getElem?_cons_zero, h]
  cases (concluded db k outcome).2 <;> rfl

/-- The two transactions of `upsert_finding`. -/
theorem run_create (H : Digest) (store : EvidenceStore S) (db : Db F) (objects : S)
    (actor : ActorContext) (args again : FindingArgs) (id : Uuid) (stamp later : Stamp F) :
    ((governance H store).run ⟨db, objects, [some ⟨actor, id, .create again (some args)⟩]⟩
      [.resume 0 stamp, .resume 0 later]).db =
      (upsertChecked H db actor args again stamp later).1 := by
  unfold upsertChecked
  cases hcreate : createFinding H db actor again stamp with
  | ok db' =>
    rw [Machine.run_cons, next_ended H store db objects _ stamp again.findingId.text (.ok db')]
    · rfl
    · simp only [advance, hcreate]
  | error e =>
    have hraised : advance H store db objects ⟨actor, id, .create again (some args)⟩ stamp =
        ((db, objects), .raised e) → ((governance H store).run
          ⟨db, objects, [some ⟨actor, id, .create again (some args)⟩]⟩
          [.resume 0 stamp, .resume 0 later]).db = db := by
      intro h
      rw [Machine.run_cons, next_ended H store db objects _ stamp again.findingId.text (.error e) h]
      rfl
    cases e with
    | valueError message =>
      by_cases hexists : lit "already exists" <:+: message
      · have hnext : (governance H store).next
            ⟨db, objects, [some ⟨actor, id, .create again (some args)⟩]⟩ (.resume 0 stamp) =
            ⟨db, objects, [some ⟨actor, id, .reassess args⟩]⟩ := by
          unfold Machine.next governance
          simp only [List.getElem?_cons_zero, advance, hcreate, if_pos hexists]
          rfl
        rw [Machine.run_cons, hnext]
        simp only [if_pos hexists]
        rw [Machine.run_cons, next_ended H store db objects _ later args.findingId.text
          (reassessFinding H db actor args later) rfl]
        rfl
      · simp only [if_neg hexists]
        exact hraised (by simp only [advance, hcreate, if_neg hexists])
    | _ => exact hraised (by simp only [advance, hcreate]; rfl)

/-- The phases of `upsert_finding`, one after the other. -/
theorem upsertFinding_run (H : Digest) (store : EvidenceStore S) (db : Db F) (objects : S)
    (actor : ActorContext) (findingId controlId assetId title riskOwner severity : Text) (id : Uuid)
    (stamp later : Stamp F) :
    ((governance H store).run ⟨db, objects, []⟩
      [.call actor (.upsertFinding findingId controlId assetId title riskOwner severity) id,
        .resume 0 stamp, .resume 0 later]).db =
      (upsertFinding H db actor findingId controlId assetId title riskOwner severity stamp later).1 := by
  have hbegin : begin H db actor
      (.upsertFinding findingId controlId assetId title riskOwner severity) =
      (checkUpsert actor findingId controlId assetId title riskOwner severity).map
        fun args => .create args.2 (some args.1) := by
    show (checkFinding actor findingId controlId assetId title riskOwner severity >>= _) = _
    unfold checkUpsert
    cases checkFinding actor findingId controlId assetId title riskOwner severity with
    | error e => rfl
    | ok args =>
      show (checkFinding actor args.findingId.text args.controlId.text args.assetId.text
        args.title.text args.riskOwner.text args.severity.text >>= _) =
        Except.map _ (checkFinding actor args.findingId.text args.controlId.text args.assetId.text
          args.title.text args.riskOwner.text args.severity.text >>= fun again => pure (args, again))
      cases checkFinding actor args.findingId.text args.controlId.text args.assetId.text
        args.title.text args.riskOwner.text args.severity.text <;> rfl
  unfold upsertFinding
  cases hargs : checkUpsert actor findingId controlId assetId title riskOwner severity with
  | error e =>
    rw [hargs] at hbegin
    simp [Machine.next, governance, hbegin, Except.map]
  | ok args =>
    obtain ⟨args, again⟩ := args
    rw [hargs] at hbegin
    have hcall : (governance H store).next ⟨db, objects, []⟩
        (.call actor (.upsertFinding findingId controlId assetId title riskOwner severity) id) =
        ⟨db, objects, [some ⟨actor, id, .create again (some args)⟩]⟩ := by
      simp [Machine.next, governance, hbegin, Except.map]
    rw [Machine.run_cons, hcall]
    exact run_create H store db objects actor args again id stamp later

end SentinelGRC.Governance
