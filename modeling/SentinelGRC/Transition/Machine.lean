import Mathlib.Data.List.Basic

/-!
Machines that answer every input. A run is the fold of the step over a list of
inputs. What one step preserves holds at the end of a run, either of every run or
of the runs whose steps all meet a condition on the state before them.

A history variable extends the state with a value computed from the steps taken.
It changes neither the states nor the answers, so what is proved with its help
holds of the machine itself.
-/

namespace SentinelGRC.Transition

/-- States `σ`, inputs `α`, answers `ρ`. -/
structure Machine (σ α ρ : Type) where
  step : σ → α → σ × ρ

namespace Machine

variable {σ α ρ η : Type}

section Runs

variable (M : Machine σ α ρ)

def next (s : σ) (a : α) : σ := (M.step s a).1

def answer (s : σ) (a : α) : ρ := (M.step s a).2

def run (s : σ) : List α → σ
  | [] => s
  | a :: rest => run (M.next s a) rest

@[simp] theorem run_nil (s : σ) : M.run s [] = s := rfl

@[simp] theorem run_cons (s : σ) (a : α) (rest : List α) :
    M.run s (a :: rest) = M.run (M.next s a) rest := rfl

theorem run_append (s : σ) (as bs : List α) : M.run s (as ++ bs) = M.run (M.run s as) bs := by
  induction as generalizing s with
  | nil => rfl
  | cons a as ih => exact ih _

theorem run_concat (s : σ) (as : List α) (a : α) :
    M.run s (as ++ [a]) = M.next (M.run s as) a := by
  rw [run_append]
  rfl

/-- What every step preserves holds at the end of a run. -/
theorem run_invariant {I : σ → Prop} (hstep : ∀ s a, I s → I (M.next s a)) {s : σ} (hs : I s)
    (as : List α) : I (M.run s as) := by
  induction as generalizing s with
  | nil => exact hs
  | cons a as ih => exact ih (hstep s a hs)

/-- Every step of a run meets a condition on the state it starts from. -/
def Along (C : σ → α → Prop) : σ → List α → Prop
  | _, [] => True
  | s, a :: rest => C s a ∧ Along C (M.next s a) rest

instance decidableAlong (C : σ → α → Prop) [∀ s a, Decidable (C s a)] :
    ∀ (s : σ) (as : List α), Decidable (M.Along C s as)
  | _, [] => isTrue trivial
  | s, a :: rest =>
    have := decidableAlong C (M.next s a) rest
    inferInstanceAs (Decidable (C s a ∧ M.Along C (M.next s a) rest))

/-- The answers of a run, in order. -/
def answers (s : σ) : List α → List ρ
  | [] => []
  | a :: rest => M.answer s a :: answers (M.next s a) rest

theorem zipWith_answers (s : σ) (as : List α) :
    List.zipWith (fun _ r => r) as (M.answers s as) = M.answers s as := by
  induction as generalizing s with
  | nil => rfl
  | cons a as ih => rw [answers, List.zipWith_cons_cons, ih]

variable {M}

/-- A machine whose states stay related to another's, as far as the inputs to come can
tell, answers as that one does. -/
theorem answers_eq_zipWith {τ ρ' : Type} {N : Machine τ α ρ'} {f : α → ρ → ρ'}
    {R : List α → σ → τ → Prop}
    (hstep : ∀ a rest s t, R (a :: rest) s t →
      N.answer t a = f a (M.answer s a) ∧ R rest (M.next s a) (N.next t a))
    {as : List α} {s : σ} {t : τ} (h : R as s t) :
    N.answers t as = List.zipWith f as (M.answers s as) := by
  induction as generalizing s t with
  | nil => rfl
  | cons a as ih =>
    obtain ⟨hanswer, hnext⟩ := hstep a as s t h
    rw [answers, answers, List.zipWith_cons_cons, hanswer, ih hnext]

theorem Along.run_invariant {C : σ → α → Prop} {I : σ → Prop}
    (hstep : ∀ s a, C s a → I s → I (M.next s a)) {s : σ} {as : List α} (hC : M.Along C s as)
    (hs : I s) : I (M.run s as) := by
  induction as generalizing s with
  | nil => exact hs
  | cons a as ih => exact ih hC.2 (hstep s a hC.1 hs)

theorem along_of_mem {C : α → Prop} (s : σ) {as : List α} (h : ∀ a ∈ as, C a) :
    M.Along (fun _ a => C a) s as := by
  induction as generalizing s with
  | nil => trivial
  | cons a as ih => exact ⟨h a List.mem_cons_self, ih _ fun b hb => h b (List.mem_cons_of_mem a hb)⟩

theorem Along.and {C P : σ → α → Prop} {s : σ} {as : List α} (hC : M.Along C s as)
    (hP : M.Along P s as) : M.Along (fun s a => C s a ∧ P s a) s as := by
  induction as generalizing s with
  | nil => trivial
  | cons a as ih => exact ⟨⟨hC.1, hP.1⟩, ih hC.2 hP.2⟩

/-- What follows at a step from an invariant and the condition follows at every step. -/
theorem Along.imp_of_invariant {C P : σ → α → Prop} {I : σ → Prop}
    (hstep : ∀ s a, C s a → I s → I (M.next s a)) (himp : ∀ s a, C s a → I s → P s a) {s : σ}
    {as : List α} (hC : M.Along C s as) (hs : I s) : M.Along P s as := by
  induction as generalizing s with
  | nil => trivial
  | cons a as ih => exact ⟨himp s a hC.1 hs, ih hC.2 (hstep s a hC.1 hs)⟩

/-- Two conditions that agree wherever an invariant holds are met by the same runs. -/
theorem along_congr_of_invariant {C P : σ → α → Prop} {I : σ → Prop}
    (hstep : ∀ s a, C s a → I s → I (M.next s a)) (hiff : ∀ s a, I s → (P s a ↔ C s a)) {s : σ}
    (hs : I s) (as : List α) : M.Along P s as ↔ M.Along C s as := by
  induction as generalizing s with
  | nil => exact Iff.rfl
  | cons a as ih =>
    constructor
    · rintro ⟨hP, hrest⟩
      have hC := (hiff s a hs).mp hP
      exact ⟨hC, (ih (hstep s a hC hs)).mp hrest⟩
    · rintro ⟨hC, hrest⟩
      exact ⟨(hiff s a hs).mpr hC, (ih (hstep s a hC hs)).mpr hrest⟩

theorem along_append {C : σ → α → Prop} {s : σ} {as bs : List α} :
    M.Along C s (as ++ bs) ↔ M.Along C s as ∧ M.Along C (M.run s as) bs := by
  induction as generalizing s with
  | nil => simp [Along]
  | cons a as ih => simp [Along, ih, and_assoc]

end Runs

/-! ### History variables -/

/-- The machine with a value folded over its steps. -/
def withHistory (M : Machine σ α ρ) (record : η → σ → α → ρ → η) : Machine (σ × η) α ρ where
  step := fun (s, h) a => ((M.next s a, record h s a (M.answer s a)), M.answer s a)

variable (M : Machine σ α ρ) (record : η → σ → α → ρ → η)

@[simp] theorem withHistory_answer (s : σ × η) (a : α) :
    (M.withHistory record).answer s a = M.answer s.1 a := rfl

@[simp] theorem withHistory_next (s : σ × η) (a : α) :
    (M.withHistory record).next s a = (M.next s.1 a, record s.2 s.1 a (M.answer s.1 a)) := rfl

theorem withHistory_run (s : σ × η) (as : List α) :
    ((M.withHistory record).run s as).1 = M.run s.1 as := by
  induction as generalizing s with
  | nil => rfl
  | cons a as ih => exact ih _

end Machine

end SentinelGRC.Transition
