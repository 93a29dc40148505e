import Mathlib.Data.Option.Basic
import Mathlib.Logic.Function.Basic
import SentinelGRC.Transition.Machine

/-!
Registers that bind each key once. The first call for a key binds it; a later call repeats
the bound value or conflicts with it, and neither changes the register. A machine whose
states hold such bindings, and whose steps bind as the register does, answers as the
register does.
-/

namespace SentinelGRC.Transition

/-! ### Machines that follow another -/

/-- On the inputs that meet `C`, a machine gives the answers of another, which it follows. -/
structure Machine.Follows {σ α ρ τ β π : Type} (M : Machine σ α ρ) (N : Machine τ β π)
    (state : σ → τ) (input : α → β) (answer : π → ρ) (C : α → Prop) : Prop where
  answer_eq : ∀ s a, C a → M.answer s a = answer (N.answer (state s) (input a))
  next_eq : ∀ s a, C a → state (M.next s a) = N.next (state s) (input a)

namespace Machine.Follows

variable {σ α ρ τ β π : Type} {M : Machine σ α ρ} {N : Machine τ β π} {state : σ → τ}
  {input : α → β} {answer : π → ρ} {C : α → Prop}

theorem run_eq (h : M.Follows N state input answer C) (s : σ) {as : List α} (has : ∀ a ∈ as, C a) :
    state (M.run s as) = N.run (state s) (as.map input) := by
  induction as generalizing s with
  | nil => rfl
  | cons a as ih =>
    obtain ⟨ha, has⟩ := List.forall_mem_cons.mp has
    rw [List.map_cons, run_cons, run_cons, ih _ has, h.next_eq s a ha]

theorem answers_eq (h : M.Follows N state input answer C) (s : σ) {as : List α}
    (has : ∀ a ∈ as, C a) :
    M.answers s as = (N.answers (state s) (as.map input)).map answer := by
  induction as generalizing s with
  | nil => rfl
  | cons a as ih =>
    obtain ⟨ha, has⟩ := List.forall_mem_cons.mp has
    rw [List.map_cons, answers, answers, List.map_cons, ih _ has, h.next_eq s a ha,
      h.answer_eq s a ha]

end Machine.Follows

/-- Answers that rule each other out are given once: such an answer leaves a state that
keeps what forbids the next one. -/
theorem Machine.countP_answers_le_one {σ α ρ : Type} {M : Machine σ α ρ} {p : α → ρ → Bool}
    {I : σ → Prop} (hkept : ∀ s a, I s → I (M.next s a))
    (hforbids : ∀ s a, I s → p a (M.answer s a) = false)
    (hleaves : ∀ s a, p a (M.answer s a) = true → I (M.next s a)) (s : σ) (as : List α) :
    (as.zip (M.answers s as)).countP (fun x => p x.1 x.2) ≤ 1 := by
  have hnone (s : σ) (hs : I s) (as : List α) :
      (as.zip (M.answers s as)).countP (fun x => p x.1 x.2) = 0 := by
    induction as generalizing s with
    | nil => rfl
    | cons a as ih =>
      rw [answers, List.zip_cons_cons, List.countP_cons, ih _ (hkept s a hs), hforbids s a hs]
      rfl
  induction as generalizing s with
  | nil => exact Nat.zero_le 1
  | cons a as ih =>
    rw [answers, List.zip_cons_cons, List.countP_cons]
    cases ha : p a (M.answer s a) with
    | false => exact ih _
    | true =>
      rw [hnone _ (hleaves s a ha)]
      exact Nat.le_refl 1

/-! ### The register -/

/-- The values that keys are bound to. -/
abbrev Bindings (κ ν : Type) := κ → Option ν

inductive Verdict
  | accepted
  | repeated
  | conflicting
  deriving DecidableEq

variable {κ ν : Type} [DecidableEq κ] [DecidableEq ν]

/-- The register: a call names a key and a value for it. -/
def register : Machine (Bindings κ ν) (κ × ν) Verdict where
  step b c :=
    match b c.1 with
    | none => (Function.update b c.1 (some c.2), .accepted)
    | some v => (b, if v = c.2 then .repeated else .conflicting)

namespace register

variable {b : Bindings κ ν} {c : κ × ν}

theorem step_of_none (h : b c.1 = none) :
    register.step b c = (Function.update b c.1 (some c.2), .accepted) := by
  simp only [register, h]

theorem step_of_some {v : ν} (h : b c.1 = some v) :
    register.step b c = (b, if v = c.2 then .repeated else .conflicting) := by
  simp only [register, h]

theorem answer_eq_accepted : register.answer b c = .accepted ↔ b c.1 = none := by
  cases h : b c.1 with
  | none => simp [Machine.answer, step_of_none h]
  | some v =>
    simp only [Machine.answer, step_of_some h, reduceCtorEq, iff_false]
    split_ifs
    · exact id
    · exact id

/-- A binding is never changed, and a free key is bound by the first call for it. -/
theorem next_apply (b : Bindings κ ν) (c : κ × ν) (k : κ) :
    register.next b c k = (b k).or (if c.1 = k then some c.2 else none) := by
  cases hc : b c.1 with
  | none =>
    rw [Machine.next, step_of_none hc]
    by_cases hk : c.1 = k
    · subst hk
      simp [hc]
    · simp [hk, Ne.symm hk]
  | some v =>
    rw [Machine.next, step_of_some hc]
    by_cases hk : c.1 = k
    · subst hk
      simp [hc]
    · simp [hk]

/-- After any calls a key is bound to its first value. -/
theorem run_apply (b : Bindings κ ν) (calls : List (κ × ν)) (k : κ) :
    register.run b calls k = (b k).or ((calls.find? fun c => c.1 = k).map Prod.snd) := by
  induction calls generalizing b with
  | nil => simp
  | cons c calls ih =>
    rw [Machine.run_cons, ih, next_apply, Option.or_assoc, List.find?_cons]
    by_cases hk : c.1 = k
    · simp [hk]
    · simp [hk]

/-- Of the calls for a key one is accepted if the key was free, and none if it was bound. -/
theorem countP_accepted (b : Bindings κ ν) (calls : List (κ × ν)) (k : κ) :
    (calls.zip (register.answers b calls)).countP (fun p => p.1.1 = k ∧ p.2 = .accepted) =
      if b k = none ∧ k ∈ calls.map Prod.fst then 1 else 0 := by
  induction calls generalizing b with
  | nil => simp [Machine.answers]
  | cons c calls ih =>
    rw [Machine.answers, List.zip_cons_cons, List.countP_cons, ih, next_apply]
    by_cases hk : c.1 = k
    · subst hk
      cases hc : b c.1 with
      | none => simp [answer_eq_accepted, hc]
      | some v => simp [answer_eq_accepted, hc]
    · have hmem : k ∈ (c :: calls).map Prod.fst ↔ k ∈ calls.map Prod.fst := by simp [Ne.symm hk]
      have hother : ¬ (c.1 = k ∧ register.answer b c = .accepted) := fun h => hk h.1
      simp only [if_neg hk, Option.or_none, hmem, hother, decide_false, Bool.false_eq_true,
        if_false, Nat.add_zero]

end register

end SentinelGRC.Transition
