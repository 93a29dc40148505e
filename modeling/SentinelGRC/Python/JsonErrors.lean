import SentinelGRC.Python.JsonLoads

/-! The exceptions of `json.loads` on text: a syntax error, or an integer with more
digits than the interpreter converts. The only other exception of the decoder is
for nesting deeper than its stack, which is not modelled. -/

namespace SentinelGRC.Python

variable {F α β : Type}

/-- An exception that `json.loads` may raise on text. -/
def PyError.OfLoads : PyError → Prop
  | .jsonDecodeError | .valueError _ => True
  | _ => False

/-- A computation that fails only as `json.loads` does. -/
def LoadsError (r : Except PyError α) : Prop := ∀ e, r = .error e → e.OfLoads

theorem loadsError_ok (a : α) : LoadsError (.ok a) := by
  intro e he
  cases he

theorem loadsError_syntax : LoadsError (.error .jsonDecodeError : Except PyError α) := by
  intro e he
  obtain rfl := Except.error.inj he
  trivial

theorem LoadsError.bind {x : Except PyError α} {f : α → Except PyError β} (hx : LoadsError x)
    (hf : ∀ a, x = .ok a → LoadsError (f a)) : LoadsError (x >>= f) := by
  cases x with
  | error e' =>
    intro e he
    obtain rfl := Except.error.inj he
    exact hx _ rfl
  | ok a => exact hf a rfl

theorem LoadsError.map {x : Except PyError α} {f : α → β} (hx : LoadsError x) :
    LoadsError (x.map f) := by
  cases x with
  | error e' =>
    intro e he
    obtain rfl := Except.error.inj he
    exact hx _ rfl
  | ok a => exact loadsError_ok _

theorem loadsError_scanString : ∀ t : Text, LoadsError (scanString t) := by
  intro t
  fun_induction scanString t
  all_goals first
    | exact loadsError_syntax
    | exact loadsError_ok _
    | exact LoadsError.map (by assumption)

variable [PyFloat F]

theorem loadsError_numeralValue (m : Numeral) : LoadsError (numeralValue (F := F) m) := by
  unfold numeralValue
  by_cases hfloat : m.isFloat = true
  · rw [if_pos hfloat]
    exact loadsError_ok _
  · rw [if_neg hfloat]
    by_cases hlimit : m.whole.length ≤ intMaxStrDigits
    · rw [if_pos hlimit]
      exact loadsError_ok _
    · rw [if_neg hlimit]
      intro e he
      obtain rfl := Except.error.inj he
      trivial

/-- All functions of the scanner, by the fuel they share. -/
theorem loadsError_scan (n : ℕ) :
    (∀ t, LoadsError (scanValue (F := F) n t)) ∧ (∀ t, LoadsError (scanObject (F := F) n t)) ∧
      (∀ fs t, LoadsError (scanFields (F := F) n fs t)) ∧
      (∀ t, LoadsError (scanArray (F := F) n t)) ∧
      ∀ xs t, LoadsError (scanItems (F := F) n xs t) := by
  induction n with
  | zero =>
    refine ⟨fun t => ?_, fun t => ?_, fun fs t => ?_, fun t => ?_, fun xs t => ?_⟩
    · rw [scanValue]
      exact loadsError_syntax
    · rw [scanObject]
      exact loadsError_syntax
    · rw [scanFields]
      exact loadsError_syntax
    · rw [scanArray]
      exact loadsError_syntax
    · rw [scanItems]
      exact loadsError_syntax
  | succ n ih =>
    obtain ⟨hvalue, hobject, hfields, harray, hitems⟩ := ih
    refine ⟨fun t => ?_, fun t => ?_, fun fs t => ?_, fun t => ?_, fun xs t => ?_⟩
    · cases t with
      | nil =>
        rw [scanValue]
        exact loadsError_syntax
      | cons c rest =>
        rw [scanValue]
        split_ifs
        · exact (loadsError_scanString rest).map
        · exact hobject _
        · exact harray _
        · split
          · exact loadsError_ok _
          · split
            · exact (loadsError_numeralValue _).map
            · exact loadsError_syntax
    · cases t with
      | nil =>
        rw [scanObject]
        exact loadsError_syntax
      | cons c rest =>
        rw [scanObject]
        split_ifs
        · exact loadsError_ok _
        · exact hfields _ _
    · cases t with
      | nil =>
        rw [scanFields]
        exact loadsError_syntax
      | cons c rest =>
        rw [scanFields]
        split_ifs
        · exact loadsError_syntax
        · refine (loadsError_scanString rest).bind ?_
          rintro ⟨key, t⟩ -
          dsimp only
          split
          · exact loadsError_syntax
          · split_ifs
            · exact loadsError_syntax
            · refine (hvalue _).bind ?_
              rintro ⟨v, t⟩ -
              dsimp only
              split
              · exact loadsError_syntax
              · split_ifs
                · exact loadsError_ok _
                · exact hfields _ _
                · exact loadsError_syntax
    · cases t with
      | nil =>
        rw [scanArray]
        exact loadsError_syntax
      | cons c rest =>
        rw [scanArray]
        split_ifs
        · exact loadsError_ok _
        · exact hitems _ _
    · rw [scanItems]
      refine (hvalue _).bind ?_
      rintro ⟨v, t⟩ -
      dsimp only
      split
      · exact loadsError_syntax
      · split_ifs
        · exact loadsError_ok _
        · exact hitems _ _
        · exact loadsError_syntax

theorem loadsError_loads (t : Text) : LoadsError (loads (F := F) t) := by
  unfold loads
  split_ifs
  · exact loadsError_syntax
  · refine ((loadsError_scan _).1 _).bind ?_
    rintro ⟨v, rest⟩ -
    dsimp only
    split_ifs
    · exact loadsError_ok _
    · exact loadsError_syntax

end SentinelGRC.Python
