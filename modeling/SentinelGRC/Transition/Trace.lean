import SentinelGRC.Transition.Machine

/-!
The steps of a run, each with the state that it found, and relations between the earlier
and the later steps of a run.
-/

namespace SentinelGRC.Transition.Machine

variable {σ α ρ : Type} (M : Machine σ α ρ)

/-- The inputs of a run with the states that they found. -/
def trace (s : σ) : List α → List (σ × α)
  | [] => []
  | a :: rest => (s, a) :: trace (M.next s a) rest

@[simp] theorem trace_nil (s : σ) : M.trace s [] = [] := rfl

@[simp] theorem trace_cons (s : σ) (a : α) (rest : List α) :
    M.trace s (a :: rest) = (s, a) :: M.trace (M.next s a) rest := rfl

variable {M}

theorem snd_mem_of_mem_trace {s : σ} {as : List α} {y : σ × α} (h : y ∈ M.trace s as) :
    y.2 ∈ as := by
  induction as generalizing s with
  | nil => simp at h
  | cons a as ih =>
    rcases List.mem_cons.mp h with rfl | h
    · exact List.mem_cons_self
    · exact List.mem_cons_of_mem a (ih h)

/-- Two relations hold between the steps of the same runs if they hold between a step and
all later ones in the same cases. `R` is what is known of the inputs. -/
theorem pairwise_trace_congr {P Q : σ × α → σ × α → Prop} {R : α → α → Prop}
    (hiff : ∀ s a rest, (∀ b ∈ rest, R a b) → rest.Pairwise R →
      ((∀ y ∈ M.trace (M.next s a) rest, P (s, a) y) ↔
        ∀ y ∈ M.trace (M.next s a) rest, Q (s, a) y)) (s : σ) {as : List α}
    (h : as.Pairwise R) : (M.trace s as).Pairwise P ↔ (M.trace s as).Pairwise Q := by
  induction as generalizing s with
  | nil => simp
  | cons a as ih =>
    obtain ⟨ha, has⟩ := List.pairwise_cons.mp h
    rw [trace_cons, List.pairwise_cons, List.pairwise_cons, hiff s a as ha has, ih _ has]

end SentinelGRC.Transition.Machine
