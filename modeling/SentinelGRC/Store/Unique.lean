import Mathlib.Data.List.Pairwise
import Mathlib.Tactic.SplitIfs

/-!
Tables with any unique constraints. A constraint is a test of two rows that no two
rows of the table may pass; inserting a row that would pass it with a stored one
fails and changes nothing. Rows stand in insertion order.
-/

namespace SentinelGRC.Store

/-- Rows of which no two clash. -/
structure Unique (ρ : Type) (clash : ρ → ρ → Bool) where
  rows : List ρ
  apart : rows.Pairwise fun q r => clash q r = false

namespace Unique

variable {ρ : Type} {clash : ρ → ρ → Bool}

def empty : Unique ρ clash := ⟨[], List.Pairwise.nil⟩

/-- Insert a row, unless it clashes with a stored one. -/
def insert? (u : Unique ρ clash) (r : ρ) : Option (Unique ρ clash) :=
  if h : ∀ q ∈ u.rows, clash q r = false then
    some ⟨u.rows ++ [r], by
      rw [List.pairwise_append]
      refine ⟨u.apart, List.pairwise_singleton _ _, ?_⟩
      intro q hq s hs
      rw [List.mem_singleton.mp hs]
      exact h q hq⟩
  else none

theorem insert?_eq_some {u v : Unique ρ clash} {r : ρ} :
    u.insert? r = some v ↔ (∀ q ∈ u.rows, clash q r = false) ∧ v.rows = u.rows ++ [r] := by
  rw [insert?]
  split_ifs with h
  · constructor
    · intro hv
      obtain rfl := Option.some.inj hv
      exact ⟨h, rfl⟩
    · rintro ⟨-, hv⟩
      cases v
      simp only [Option.some.injEq, mk.injEq]
      exact hv.symm
  · constructor
    · intro hv
      cases hv
    · rintro ⟨hall, -⟩
      exact absurd hall h

/-- Rewrite the rows with a function that the constraint does not see. -/
def map (u : Unique ρ clash) (f : ρ → ρ) (hf : ∀ q r, clash (f q) (f r) = clash q r) :
    Unique ρ clash where
  rows := u.rows.map f
  apart := by
    rw [List.pairwise_map]
    exact u.apart.imp fun {q r} h => (hf q r).trans h

/-- Two rows that share what a constraint looks at are one row. -/
theorem eq_of_clash {u : Unique ρ clash} (hsymm : ∀ q r, clash q r = clash r q) {q r : ρ}
    (hq : q ∈ u.rows) (hr : r ∈ u.rows) (h : clash q r = true) : q = r := by
  by_contra hne
  have : Std.Symm fun q r => clash q r = false := ⟨fun q r hqr => by rw [hsymm, hqr]⟩
  rw [u.apart.forall hq hr hne] at h
  cases h

end Unique

end SentinelGRC.Store
