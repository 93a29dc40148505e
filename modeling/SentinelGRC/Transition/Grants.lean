import Mathlib.Logic.Function.Basic
import SentinelGRC.Transition.Trace

/-!
Rights that are granted once and can be withdrawn. A grant to a key that had one before,
withdrawn or not, does nothing, so a withdrawal is for good. After a run of a machine that
grants and withdraws, a key has the rights of the one grant that found it without any,
exactly when no withdrawal came after that.
-/

namespace SentinelGRC.Transition

inductive Standing (ρ : Type)
  | granted (rights : ρ)
  | withdrawn (rights : ρ)

def Standing.withdraw {ρ : Type} : Standing ρ → Standing ρ
  | .granted rights | .withdrawn rights => .withdrawn rights

inductive GrantEvent (κ ρ : Type)
  | grant (key : κ) (rights : ρ)
  | withdraw (key : κ)

/-- Where each key stands; a key that was never granted anything does not. -/
abbrev Standings (κ ρ : Type) := κ → Option (Standing ρ)

variable {κ ρ : Type} [DecidableEq κ]

def Standings.apply (b : Standings κ ρ) : GrantEvent κ ρ → Standings κ ρ
  | .grant key rights => Function.update b key ((b key).or (some (.granted rights)))
  | .withdraw key => Function.update b key ((b key).map Standing.withdraw)

namespace Standings

variable {b : Standings κ ρ} {event : GrantEvent κ ρ} {k : κ} {rights rights' : ρ}

theorem apply_other (hgrant : ∀ rights, event ≠ .grant k rights) (hwithdraw : event ≠ .withdraw k) :
    b.apply event k = b k := by
  cases event with
  | grant key rights =>
    have hkey : k ≠ key := by
      rintro rfl
      exact hgrant rights rfl
    exact Function.update_of_ne hkey _ _
  | withdraw key =>
    have hkey : k ≠ key := by
      rintro rfl
      exact hwithdraw rfl
    exact Function.update_of_ne hkey _ _

theorem apply_withdraw : b.apply (.withdraw k) k = (b k).map Standing.withdraw :=
  Function.update_self ..

theorem apply_grant : b.apply (.grant k rights) k = (b k).or (some (.granted rights)) :=
  Function.update_self ..

/-- A withdrawal is for good. -/
theorem apply_withdrawn (h : b k = some (.withdrawn rights)) (event : GrantEvent κ ρ) :
    b.apply event k = some (.withdrawn rights) := by
  by_cases hwithdraw : event = .withdraw k
  · subst hwithdraw
    rw [apply_withdraw, h]
    rfl
  by_cases hgrant : ∃ other, event = .grant k other
  · obtain ⟨other, rfl⟩ := hgrant
    rw [apply_grant, h]
    rfl
  · rw [apply_other (fun other h => hgrant ⟨other, h⟩) hwithdraw, h]

/-- Granted rights stay until they are withdrawn, whatever else is granted. -/
theorem apply_granted (h : b k = some (.granted rights)) (hwithdraw : event ≠ .withdraw k) :
    b.apply event k = some (.granted rights) := by
  by_cases hgrant : ∃ other, event = .grant k other
  · obtain ⟨other, rfl⟩ := hgrant
    rw [apply_grant, h]
    rfl
  · rw [apply_other (fun other h => hgrant ⟨other, h⟩) hwithdraw, h]

/-- A key without rights gets them from a grant to it only. -/
theorem apply_none (h : b k = none) (hgrant : ∀ rights, event ≠ .grant k rights) :
    b.apply event k = none := by
  by_cases hwithdraw : event = .withdraw k
  · subst hwithdraw
    rw [apply_withdraw, h]
    rfl
  · rw [apply_other hgrant hwithdraw, h]

end Standings

/-! ### Machines that grant and withdraw -/

namespace Machine

variable {σ α π : Type} {M : Machine σ α π} {standings : σ → Standings κ ρ}
  {event? : σ → α → Option (GrantEvent κ ρ)}

/-- A machine whose steps grant and withdraw: `event?` says what an input does in a state. -/
structure Grants (M : Machine σ α π) (standings : σ → Standings κ ρ)
    (event? : σ → α → Option (GrantEvent κ ρ)) : Prop where
  next_of_event : ∀ s a event, event? s a = some event →
    standings (M.next s a) = (standings s).apply event
  next_of_none : ∀ s a, event? s a = none → standings (M.next s a) = standings s

/-- No step of the run withdraws the rights of `k`. -/
def Keeps (M : Machine σ α π) (event? : σ → α → Option (GrantEvent κ ρ)) (k : κ) (s : σ)
    (as : List α) : Prop :=
  M.Along (fun s a => event? s a ≠ some (.withdraw k)) s as

omit [DecidableEq κ] in
/-- What an input withdraws may not depend on the state. -/
theorem keeps_iff_forall {f : α → Option (GrantEvent κ ρ)} {k : κ} {s : σ} {as : List α} :
    M.Keeps (fun _ a => f a) k s as ↔ ∀ a ∈ as, f a ≠ some (.withdraw k) := by
  induction as generalizing s with
  | nil => simp [Keeps, Along]
  | cons a as ih => rw [Keeps, Along, List.forall_mem_cons, ← ih (s := M.next s a), Keeps]

/-- A step of the run found `k` without rights and granted it `rights`, and no later step
withdrew them. -/
def GrantedIn (M : Machine σ α π) (standings : σ → Standings κ ρ)
    (event? : σ → α → Option (GrantEvent κ ρ)) (k : κ) (rights : ρ) (s : σ) (as : List α) : Prop :=
  ∃ earlier a later, as = earlier ++ a :: later ∧
    event? (M.run s earlier) a = some (.grant k rights) ∧ standings (M.run s earlier) k = none ∧
    M.Keeps event? k (M.next (M.run s earlier) a) later

omit [DecidableEq κ] in
theorem GrantedIn.cons {k : κ} {rights : ρ} {s : σ} {a : α} {as : List α}
    (h : M.GrantedIn standings event? k rights (M.next s a) as) :
    M.GrantedIn standings event? k rights s (a :: as) := by
  obtain ⟨earlier, b, later, rfl, hevent, hnone, hkeeps⟩ := h
  exact ⟨a :: earlier, b, later, rfl, hevent, hnone, hkeeps⟩

namespace Grants

variable (h : M.Grants standings event?) {s : σ} {a : α} {k : κ} {rights rights' : ρ}

include h

theorem next_withdrawn (hs : standings s k = some (.withdrawn rights)) (a : α) :
    standings (M.next s a) k = some (.withdrawn rights) := by
  cases hevent : event? s a with
  | none => rw [h.next_of_none s a hevent, hs]
  | some event =>
    rw [h.next_of_event s a event hevent]
    exact Standings.apply_withdrawn hs event

theorem next_granted (hs : standings s k = some (.granted rights))
    (ha : event? s a ≠ some (.withdraw k)) : standings (M.next s a) k = some (.granted rights) := by
  cases hevent : event? s a with
  | none => rw [h.next_of_none s a hevent, hs]
  | some event =>
    rw [h.next_of_event s a event hevent]
    refine Standings.apply_granted hs fun hwithdraw => ha ?_
    rw [hevent, hwithdraw]

theorem next_none (hs : standings s k = none) (ha : ∀ rights, event? s a ≠ some (.grant k rights)) :
    standings (M.next s a) k = none := by
  cases hevent : event? s a with
  | none => rw [h.next_of_none s a hevent, hs]
  | some event =>
    rw [h.next_of_event s a event hevent]
    refine Standings.apply_none hs fun rights hgrant => ha rights ?_
    rw [hevent, hgrant]

/-- A key that stands somewhere is not granted anything later. -/
theorem not_grantedIn (hs : standings s k ≠ none) (as : List α) :
    ¬ M.GrantedIn standings event? k rights s as := by
  rintro ⟨earlier, a, later, -, -, hnone, -⟩
  refine M.run_invariant (I := fun s => standings s k ≠ none) (fun s a hs => ?_) hs earlier hnone
  obtain ⟨standing, hstanding⟩ := Option.ne_none_iff_exists'.mp hs
  cases standing with
  | withdrawn rights => simp [h.next_withdrawn hstanding a]
  | granted rights =>
    by_cases hwithdraw : event? s a = some (.withdraw k)
    · rw [h.next_of_event s a _ hwithdraw, Standings.apply_withdraw, hstanding]
      simp
    · simp [h.next_granted hstanding hwithdraw]

theorem run_granted_iff (hs : standings s k = some (.granted rights)) (as : List α) :
    standings (M.run s as) k = some (.granted rights') ↔
      rights = rights' ∧ M.Keeps event? k s as := by
  induction as generalizing s with
  | nil => simp [hs, Keeps, Along]
  | cons a as ih =>
    rw [run_cons, Keeps, Along]
    by_cases hwithdraw : event? s a = some (.withdraw k)
    · have hgone : standings (M.next s a) k = some (.withdrawn rights) := by
        rw [h.next_of_event s a _ hwithdraw, Standings.apply_withdraw, hs]
        rfl
      have hrun : standings (M.run (M.next s a) as) k = some (.withdrawn rights) :=
        M.run_invariant (I := fun s => standings s k = some (.withdrawn rights))
          (fun s a hs => h.next_withdrawn hs a) hgone as
      simp [hrun, hwithdraw]
    · rw [ih (h.next_granted hs hwithdraw)]
      simp [hwithdraw, Keeps]

theorem run_none_iff (hs : standings s k = none) (as : List α) :
    standings (M.run s as) k = some (.granted rights) ↔
      M.GrantedIn standings event? k rights s as := by
  induction as generalizing s with
  | nil => simp [hs, GrantedIn]
  | cons a as ih =>
    rw [run_cons]
    by_cases hgrant : ∃ other, event? s a = some (.grant k other)
    · obtain ⟨other, hother⟩ := hgrant
      have hnext : standings (M.next s a) k = some (.granted other) := by
        rw [h.next_of_event s a _ hother, Standings.apply_grant, hs]
        rfl
      rw [h.run_granted_iff hnext]
      constructor
      · rintro ⟨rfl, hkeeps⟩
        exact ⟨[], a, as, rfl, hother, hs, hkeeps⟩
      · rintro ⟨earlier, b, later, heq, hevent, hnone, hkeeps⟩
        cases earlier with
        | nil =>
          simp only [List.nil_append, List.cons.injEq] at heq
          obtain ⟨rfl, rfl⟩ := heq
          rw [run_nil, hother] at hevent
          simp only [Option.some.injEq, GrantEvent.grant.injEq, true_and] at hevent
          exact ⟨hevent, hkeeps⟩
        | cons first earlier =>
          simp only [List.cons_append, List.cons.injEq] at heq
          obtain ⟨rfl, rfl⟩ := heq
          exact absurd ⟨earlier, b, later, rfl, hevent, hnone, hkeeps⟩
            (h.not_grantedIn (by rw [hnext]; exact Option.some_ne_none _) _)
    · have hgrant' : ∀ other, event? s a ≠ some (.grant k other) := fun other ho => hgrant ⟨other, ho⟩
      rw [ih (h.next_none hs hgrant')]
      constructor
      · exact GrantedIn.cons
      · rintro ⟨earlier, b, later, heq, hevent, hnone, hkeeps⟩
        cases earlier with
        | nil =>
          simp only [List.nil_append, List.cons.injEq] at heq
          obtain ⟨rfl, rfl⟩ := heq
          exact absurd hevent (hgrant' rights)
        | cons first earlier =>
          simp only [List.cons_append, List.cons.injEq] at heq
          obtain ⟨rfl, rfl⟩ := heq
          exact ⟨earlier, b, later, rfl, hevent, hnone, hkeeps⟩

/-- After a run a key has the rights it started with, if no step withdrew them, or those that
the run granted it. -/
theorem run_iff (s : σ) (as : List α) : standings (M.run s as) k = some (.granted rights) ↔
    (standings s k = some (.granted rights) ∧ M.Keeps event? k s as) ∨
      M.GrantedIn standings event? k rights s as := by
  cases hs : standings s k with
  | none => simp [h.run_none_iff hs]
  | some standing =>
    have hnot : ¬ M.GrantedIn standings event? k rights s as :=
      h.not_grantedIn (by rw [hs]; exact Option.some_ne_none _) as
    cases standing with
    | granted other =>
      rw [h.run_granted_iff hs]
      simp [hnot]
    | withdrawn other =>
      have hrun : standings (M.run s as) k = some (.withdrawn other) :=
        M.run_invariant (I := fun s => standings s k = some (.withdrawn other))
          (fun s a hs => h.next_withdrawn hs a) hs as
      simp [hrun, hnot]

end Grants

end Machine

end SentinelGRC.Transition
