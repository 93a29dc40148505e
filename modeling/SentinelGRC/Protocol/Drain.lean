import Mathlib.Data.Set.Insert
import Mathlib.Order.WellFounded

/-!
Draining an ordered queue. One ready item is done at a time, each after all items before it,
until none is left that could be. Then exactly the items are done that were done or that are
ready with all items before them, in whatever order they were taken.
-/

namespace SentinelGRC.Protocol

variable {κ : Type}

/-- All items before `k` are done. -/
def AllBefore (before : κ → κ → Prop) (done : Set κ) (k : κ) : Prop := ∀ j, before j k → j ∈ done

/-- `k` is ready, and so are all items before it. -/
def Unobstructed (before : κ → κ → Prop) (ready : Set κ) (k : κ) : Prop :=
  k ∈ ready ∧ ∀ j, before j k → j ∈ ready

/-- From one set of done items to another, until no ready item is clear. -/
inductive Drains (before : κ → κ → Prop) (ready : Set κ) : Set κ → Set κ → Prop
  | stuck {done : Set κ} (h : ∀ k ∈ ready, AllBefore before done k → k ∈ done) :
      Drains before ready done done
  | step {done final : Set κ} (k : κ) (hready : k ∈ ready) (hbefore : AllBefore before done k)
      (h : Drains before ready (insert k done) final) : Drains before ready done final

namespace Drains

variable {before : κ → κ → Prop} {ready done final : Set κ}

theorem subset (h : Drains before ready done final) : done ⊆ final := by
  induction h with
  | stuck => exact subset_rfl
  | step k _ _ _ ih => exact (Set.subset_insert k _).trans ih

/-- What was not done before is done only if nothing was in its way. -/
theorem unobstructed (h : Drains before ready done final) (hdone : done ⊆ ready) {k : κ}
    (hk : k ∈ final) : k ∈ done ∨ Unobstructed before ready k := by
  induction h with
  | stuck => exact .inl hk
  | @step done final l hready hbefore _ ih =>
    rcases ih (Set.insert_subset hready hdone) hk with hmem | hfree
    · rcases Set.mem_insert_iff.mp hmem with rfl | hmem
      · exact .inr ⟨hready, fun j hj => hdone (hbefore j hj)⟩
      · exact .inl hmem
    · exact .inr hfree

/-- At the end a ready item is done once the items before it are. -/
theorem closed (h : Drains before ready done final) {k : κ} (hk : k ∈ ready)
    (hbefore : AllBefore before final k) : k ∈ final := by
  induction h with
  | stuck hstuck => exact hstuck k hk hbefore
  | step l _ _ _ ih => exact ih hbefore

theorem mem_iff (hwf : WellFounded before) (htrans : ∀ i j k, before i j → before j k → before i k)
    (h : Drains before ready done final) (hdone : done ⊆ ready) {k : κ} :
    k ∈ final ↔ k ∈ done ∨ Unobstructed before ready k := by
  have hfree : ∀ k, Unobstructed before ready k → k ∈ final := by
    intro k
    induction k using hwf.induction with
    | _ k ih =>
      rintro ⟨hk, hall⟩
      refine h.closed hk fun j hj => ih j hj ⟨hall j hj, fun i hi => ?_⟩
      exact hall i (htrans i j k hi hj)
  constructor
  · exact h.unobstructed hdone
  · rintro (hk | hk)
    · exact h.subset hk
    · exact hfree k hk

end Drains

end SentinelGRC.Protocol
