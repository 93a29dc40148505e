import Mathlib.Data.Nat.Find

/-!
A loop of attempts. Each attempt either settles the call or leaves it to the next one,
and a bound says how many there can be.
-/

namespace SentinelGRC.Transition

variable {β : Type}

/-- How a loop of attempts ended, and how many were made. -/
structure Settled (β : Type) where
  attempts : ℕ
  result : β

/-- The attempts `i`, `i + 1`, …, at most `left` of them. -/
def retry (attempt : ℕ → Option β) (exhausted : β) : ℕ → ℕ → Settled β
  | 0, i => ⟨i, exhausted⟩
  | left + 1, i =>
    match attempt i with
    | some result => ⟨i + 1, result⟩
    | none => retry attempt exhausted left (i + 1)

variable {attempt : ℕ → Option β} {exhausted result : β}

/-- The loop ends with the first attempt that settles the call. -/
theorem retry_eq_of_first {left i k : ℕ} (hik : i ≤ k) (hk : k < i + left)
    (hnone : ∀ j, i ≤ j → j < k → attempt j = none) (hsome : attempt k = some result) :
    retry attempt exhausted left i = ⟨k + 1, result⟩ := by
  induction left generalizing i with
  | zero => omega
  | succ left ih =>
    rcases Nat.eq_or_lt_of_le hik with rfl | hlt
    · simp only [retry, hsome]
    · simp only [retry, hnone i (Nat.le_refl i) hlt]
      apply ih hlt
      · omega
      · intro j hj hjk
        exact hnone j (by omega) hjk

/-- Some attempt settles the call if the last one would. -/
theorem exists_first {last : ℕ} (h : attempt last ≠ none) :
    ∃ k result, k ≤ last ∧ (∀ j < k, attempt j = none) ∧ attempt k = some result := by
  classical
  have hsettles : ∃ k, attempt k ≠ none := ⟨last, h⟩
  obtain ⟨result, hresult⟩ := Option.ne_none_iff_exists'.mp (Nat.find_spec hsettles)
  refine ⟨Nat.find hsettles, result, Nat.find_min' hsettles h, ?_, hresult⟩
  intro j hj
  exact not_not.mp (Nat.find_min hsettles hj)

end SentinelGRC.Transition
