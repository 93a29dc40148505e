import SentinelGRC.Python.JsonErrors

/-!
Computations that raise only exceptions of some kind. A sequence of steps is such a
computation exactly when its first step is and, where that succeeds, the rest is. What a
sequence of steps returns is what its last step returns.
-/

namespace SentinelGRC.Python

variable {α β : Type} {P Q : PyError → Prop}

def Raises (P : PyError → Prop) (r : Except PyError α) : Prop := ∀ e, r = .error e → P e

theorem raises_ok (a : α) : Raises P (.ok a) := by
  intro e he
  cases he

theorem raises_error {e : PyError} : Raises P (.error e : Except PyError α) ↔ P e := by
  constructor
  · intro h
    exact h e rfl
  · intro h e' he
    obtain rfl := Except.error.inj he
    exact h

theorem Raises.mono {r : Except PyError α} (h : Raises P r) (hPQ : ∀ e, P e → Q e) : Raises Q r :=
  fun e he => hPQ e (h e he)

theorem raises_bind {x : Except PyError α} {f : α → Except PyError β} :
    Raises P (x >>= f) ↔ Raises P x ∧ ∀ a, x = .ok a → Raises P (f a) := by
  cases x with
  | error e =>
    change Raises P (.error e : Except PyError β) ↔ _
    rw [raises_error, raises_error]
    exact ⟨fun h => ⟨h, nofun⟩, And.left⟩
  | ok a =>
    change Raises P (f a) ↔ _
    constructor
    · intro h
      refine ⟨raises_ok a, fun b hb => ?_⟩
      obtain rfl := Except.ok.inj hb
      exact h
    · intro h
      exact h.2 a rfl

theorem Raises.bind {x : Except PyError α} {f : α → Except PyError β} (hx : Raises P x)
    (hf : ∀ a, x = .ok a → Raises P (f a)) : Raises P (x >>= f) :=
  raises_bind.mpr ⟨hx, hf⟩

/-- Where the first step raises nothing else, the rest decides. -/
theorem Raises.bind_iff {x : Except PyError α} {f : α → Except PyError β} (hx : Raises P x) :
    Raises P (x >>= f) ↔ ∀ a, x = .ok a → Raises P (f a) := by
  rw [raises_bind]
  exact ⟨And.right, fun h => ⟨hx, h⟩⟩

theorem Raises.mapM {f : α → Except PyError β} (h : ∀ a, Raises P (f a)) :
    ∀ xs : List α, Raises P (xs.mapM f)
  | [] => raises_ok _
  | x :: xs => by
    rw [List.mapM_cons]
    exact (h x).bind fun y _ => (Raises.mapM h xs).bind fun ys _ => raises_ok _

/-- A check, and the result where it passes. -/
theorem raises_ite {p : Prop} [Decidable p] {e : PyError} {x : Except PyError α} (he : P e) :
    Raises P (if p then .error e else x) ↔ (¬ p → Raises P x) := by
  split_ifs with h
  · exact iff_of_true (raises_error.mpr he) fun hp => absurd h hp
  · exact ⟨fun hx _ => hx, fun hx => hx h⟩

/-! ### Results -/

/-- A computation that returns only what meets a condition. -/
def Returns (R : α → Prop) (r : Except PyError α) : Prop := ∀ a, r = .ok a → R a

theorem returns_ok {R : α → Prop} {a : α} (h : R a) : Returns R (.ok a) := by
  rintro b ⟨⟩
  exact h

theorem returns_error {R : α → Prop} (e : PyError) : Returns R (.error e) := by
  intro a h
  cases h

/-- Only the last step counts. -/
theorem Returns.bind {R : β → Prop} {x : Except PyError α} {f : α → Except PyError β}
    (h : ∀ a, x = .ok a → Returns R (f a)) : Returns R (x >>= f) := by
  intro b hb
  obtain ⟨a, ha, hb⟩ := bind_eq_ok.mp hb
  exact h a ha b hb

/-! ### Value errors -/

/-- `ValueError` and its subclasses. -/
def PyError.IsValueError : PyError → Prop
  | .valueError _ | .unicodeEncodeError | .unicodeDecodeError | .jsonDecodeError => True
  | _ => False

abbrev ValueErrorsOnly (r : Except PyError α) : Prop := Raises PyError.IsValueError r

theorem valueErrorsOnly_valueError (message : Text) :
    ValueErrorsOnly (.error (.valueError message) : Except PyError α) := raises_error.mpr trivial

theorem valueErrorsOnly_ite {p : Prop} [Decidable p] {message : Text} {x : Except PyError α} :
    ValueErrorsOnly (if p then .error (.valueError message) else x) ↔ (¬ p → ValueErrorsOnly x) :=
  raises_ite trivial

theorem raises_encodeUtf8 (t : Text) : Raises (· = .unicodeEncodeError) (encodeUtf8 t) := by
  unfold encodeUtf8
  split_ifs
  · exact raises_ok _
  · exact raises_error.mpr rfl

theorem valueErrorsOnly_loads {F : Type} [PyFloat F] (t : Text) :
    ValueErrorsOnly (loads (F := F) t) := by
  intro e he
  have hloads := loadsError_loads t e he
  cases e with
  | jsonDecodeError => trivial
  | valueError message => trivial
  | _ => exact hloads.elim

end SentinelGRC.Python
