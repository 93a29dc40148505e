import Mathlib.Data.List.Basic

/-!
Fields joined by a separator. Cutting a joined list at its separators gives the pieces of its
fields one after the other, so two lists of fields join alike exactly when their pieces are
the same; where the separator is excluded from the fields, these are the fields themselves.
-/

namespace SentinelGRC.Python

variable {α : Type} [DecidableEq α] {sep : α}

/-- The pieces of all fields, in order. -/
def pieces (sep : α) (fields : List (List α)) : List (List α) :=
  fields.flatMap (List.splitOn sep)

@[simp] theorem pieces_cons (field : List α) (fields : List (List α)) :
    pieces sep (field :: fields) = field.splitOn sep ++ pieces sep fields := rfl

theorem splitOn_intercalate_eq_pieces {fields : List (List α)} (h : fields ≠ []) :
    (List.intercalate [sep] fields).splitOn sep = pieces sep fields := by
  induction fields with
  | nil => exact absurd rfl h
  | cons field fields ih =>
    cases fields with
    | nil => simp [pieces]
    | cons next fields =>
      rw [List.intercalate_cons_cons, List.append_assoc, List.singleton_append,
        List.splitOn_append_cons_self, ih (List.cons_ne_nil _ _)]
      rfl

/-- Fields join alike exactly when they fall into the same pieces. -/
theorem intercalate_eq_iff {fields fields' : List (List α)} (h : fields ≠ []) (h' : fields' ≠ []) :
    List.intercalate [sep] fields = List.intercalate [sep] fields' ↔
      pieces sep fields = pieces sep fields' := by
  rw [← splitOn_intercalate_eq_pieces h, ← splitOn_intercalate_eq_pieces h']
  constructor
  · intro hsame
    rw [hsame]
  · intro hsame
    have hjoin := congrArg (List.intercalate [sep]) hsame
    rwa [List.intercalate_splitOn, List.intercalate_splitOn] at hjoin

theorem pieces_of_not_mem {fields : List (List α)} (h : ∀ field ∈ fields, sep ∉ field) :
    pieces sep fields = fields := by
  induction fields with
  | nil => rfl
  | cons field fields ih =>
    rw [pieces_cons, List.splitOn_eq_singleton (h field List.mem_cons_self),
      ih fun f hf => h f (List.mem_cons_of_mem _ hf), List.singleton_append]

/-- Fields without the separator are told apart by what they join to. -/
theorem intercalate_injective {fields fields' : List (List α)} (h : fields ≠ []) (h' : fields' ≠ [])
    (hfields : ∀ field ∈ fields, sep ∉ field) (hfields' : ∀ field ∈ fields', sep ∉ field)
    (hsame : List.intercalate [sep] fields = List.intercalate [sep] fields') :
    fields = fields' := by
  have hpieces := (intercalate_eq_iff h h').mp hsame
  rwa [pieces_of_not_mem hfields, pieces_of_not_mem hfields'] at hpieces

theorem length_splitOn (field : List α) : (field.splitOn sep).length = field.count sep + 1 := by
  induction field with
  | nil => rfl
  | cons a field ih =>
    rw [List.splitOn_cons_eq_if_modifyHead, List.count_cons]
    split_ifs
    · rw [List.length_cons, ih]
    · rw [List.length_modifyHead, ih, Nat.add_zero]

/-- Of fields that fall into the same pieces, those are the same that have the separators in
the same fields. -/
theorem eq_iff_pieces_eq {fields fields' : List (List α)} (h : fields.length = fields'.length) :
    fields = fields' ↔
      pieces sep fields = pieces sep fields' ∧ fields.map (List.count sep) = fields'.map (List.count sep) := by
  constructor
  · rintro rfl
    exact ⟨rfl, rfl⟩
  · rintro ⟨hpieces, hcounts⟩
    induction fields generalizing fields' with
    | nil => exact (List.length_eq_zero_iff.mp h.symm).symm
    | cons field fields ih =>
      cases fields' with
      | nil => cases h
      | cons field' fields' =>
        obtain ⟨hcount, hcounts⟩ := List.cons.inj hcounts
        have hlength : (field.splitOn sep).length = (field'.splitOn sep).length := by
          rw [length_splitOn, length_splitOn, hcount]
        obtain ⟨hfirst, hrest⟩ := List.append_inj hpieces hlength
        have hfield := congrArg (List.intercalate [sep]) hfirst
        rw [List.intercalate_splitOn, List.intercalate_splitOn] at hfield
        rw [hfield, ih (Nat.succ.inj h) hrest hcounts]

omit [DecidableEq α] in
/-- Two fields and a separator between them: either the cuts coincide, or one cut is at an
earlier separator than the other, and what lies between them moves from field to field. -/
theorem append_cons_eq_append_cons_iff {a b a' b' : List α} :
    a ++ sep :: b = a' ++ sep :: b' ↔
      (a = a' ∧ b = b') ∨ (∃ m, a' = a ++ sep :: m ∧ b = m ++ sep :: b') ∨
        ∃ m, a = a' ++ sep :: m ∧ b' = m ++ sep :: b := by
  constructor
  · intro h
    rcases List.append_eq_append_iff.mp h with ⟨m, rfl, hm⟩ | ⟨m, rfl, hm⟩
    · cases m with
      | nil => exact .inl ⟨by simp, by simpa using hm⟩
      | cons c m =>
        obtain ⟨rfl, rfl⟩ := List.cons.inj hm
        exact .inr (.inl ⟨m, rfl, rfl⟩)
    · cases m with
      | nil => exact .inl ⟨by simp, by simpa using hm.symm⟩
      | cons c m =>
        obtain ⟨rfl, rfl⟩ := List.cons.inj hm
        exact .inr (.inr ⟨m, rfl, rfl⟩)
  · rintro (⟨rfl, rfl⟩ | ⟨m, rfl, rfl⟩ | ⟨m, rfl, rfl⟩)
    · rfl
    · simp
    · simp

end SentinelGRC.Python
