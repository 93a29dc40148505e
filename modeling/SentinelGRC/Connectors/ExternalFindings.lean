import SentinelGRC.Python.Dict
import SentinelGRC.Store.Table

/-!
The table of external findings. A finding is kept under its identifier; storing another one
under the same identifier reassesses the row and replaces what it says.
-/

namespace SentinelGRC.Connectors

open Python Json Store

/-- A finding as a connector returns it. -/
structure ExternalFinding (F : Type) where
  findingId : Text
  source : Text
  controlId : Text
  assetId : Text
  title : Text
  riskOwner : Text
  severity : Text
  details : Fields F

/-- A row of `external_findings`, with the object that its `details_json` is the text of. -/
structure ExternalRow (F T : Type) extends ExternalFinding F where
  createdAt : T
  updatedAt : T
  reassessmentCount : ℕ

variable {F T : Type}

abbrev ExternalFindings (F T : Type) := Table (ExternalRow F T) Text fun r => r.findingId

def severities : List Text := [lit "low", lit "medium", lit "high", lit "critical"]

/-- The `INSERT`. -/
def newRow (finding : ExternalFinding F) (current : T) : ExternalRow F T :=
  { finding with createdAt := current, updatedAt := current, reassessmentCount := 0 }

/-- The `UPDATE`, under the identifier of the finding. -/
def reassess (finding : ExternalFinding F) (current : T) (r : ExternalRow F T) : ExternalRow F T :=
  { finding with
    findingId := r.findingId
    createdAt := r.createdAt
    updatedAt := current
    reassessmentCount := r.reassessmentCount + 1 }

theorem reassess_findingId (finding : ExternalFinding F) (current : T) (r : ExternalRow F T) :
    (reassess finding current r).findingId = r.findingId := rfl

/-- What is stored under the identifier of a finding. -/
def storedRow (finding : ExternalFinding F) (current : T) : Option (ExternalRow F T) → ExternalRow F T
  | none => newRow finding current
  | some r => reassess finding current r

/-- `upsert_external_finding`; the result tells whether the finding is new. -/
def upsertExternalFinding (t : ExternalFindings F T) (finding : ExternalFinding F) (current : T) :
    Except PyError (ExternalFindings F T × Bool) :=
  if finding.severity ∉ severities then
    .error (.valueError (lit "External finding severity is invalid."))
  else
    match t.insert? (newRow finding current) with
    | some u => .ok (u, true)
    | none => .ok (t.modify finding.findingId (reassess finding current)
      (reassess_findingId finding current), false)

@[simp] theorem storedRow_details (finding : ExternalFinding F) (current : T)
    (found : Option (ExternalRow F T)) : (storedRow finding current found).details = finding.details := by
  cases found <;> rfl

/-- An upsert writes the row of its finding and no other one. -/
theorem upsertExternalFinding_spec (t : ExternalFindings F T) {finding : ExternalFinding F}
    (hseverity : finding.severity ∈ severities) (current : T) :
    ∃ u, upsertExternalFinding t finding current =
        .ok (u, (t.find? finding.findingId).isNone) ∧
      ∀ k, u.find? k = if finding.findingId = k then
        some (storedRow finding current (t.find? finding.findingId)) else t.find? k := by
  unfold upsertExternalFinding
  rw [if_neg (not_not.mpr hseverity)]
  cases hinsert : t.insert? (newRow finding current) with
  | some u =>
    obtain ⟨hnone, -⟩ := Table.insert?_eq_some.mp hinsert
    have hfind : t.find? finding.findingId = none := hnone
    refine ⟨u, by rw [hfind]; rfl, fun k => ?_⟩
    rw [Table.find?_insert? hinsert, hfind]
    rfl
  | none =>
    obtain ⟨r, hr⟩ := Table.insert?_eq_none.mp hinsert
    have hfind : t.find? finding.findingId = some r := hr
    refine ⟨_, by rw [hfind]; rfl, fun k => ?_⟩
    rw [Table.find?_modify]
    by_cases hk : finding.findingId = k
    · subst hk
      rw [hfind, if_pos rfl]
      simp [storedRow]
    · rw [if_neg hk]
      simp [Ne.symm hk]

end SentinelGRC.Connectors
