import Mathlib.Data.List.Basic

/-!
Walks along labelled arrows. A walk is recorded as its trail: the label of each arrow
taken with the place it led to. What every arrow preserves of a trail and its end holds
of every walk.
-/

namespace SentinelGRC.Transition

variable {σ α : Type}

/-- A walk from a place, with its trail and its end. -/
inductive Walk (arrow : σ → α → σ → Prop) (start : σ) : List (α × σ) → σ → Prop
  | nil : Walk arrow start [] start
  | snoc {trail : List (α × σ)} {s t : σ} {a : α} : Walk arrow start trail s → arrow s a t →
      Walk arrow start (trail ++ [(a, t)]) t

namespace Walk

variable {arrow : σ → α → σ → Prop} {start : σ}

/-- A property of trails with their ends holds of every walk if each arrow keeps it. -/
theorem invariant {I : List (α × σ) → σ → Prop} (hnil : I [] start)
    (hstep : ∀ trail s a t, arrow s a t → I trail s → I (trail ++ [(a, t)]) t)
    {trail : List (α × σ)} {s : σ} (h : Walk arrow start trail s) : I trail s := by
  induction h with
  | nil => exact hnil
  | snoc hwalk harrow ih => exact hstep _ _ _ _ harrow ih

end Walk

end SentinelGRC.Transition
