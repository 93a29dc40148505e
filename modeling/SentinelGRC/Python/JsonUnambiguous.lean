import SentinelGRC.Python.Dict
import SentinelGRC.Python.JsonRoundTrip
import SentinelGRC.Python.JsonText

/-! Where a rendered value ends, whatever follows it. The scan counts open brackets and
passes over strings, so it needs no condition on the value: a text that begins with a
rendered value begins with only one, and two renderings of an object with the same keys
agree at each key. -/

namespace SentinelGRC.Python.Json

variable {F : Type}

/-! ### The end of a value -/

/-- A code point of a number or a keyword. -/
def isAtomChar (c : CodePoint) : Bool :=
  isDigit c || (0x41 ≤ c.val && c.val ≤ 0x5A) || (0x61 ≤ c.val && c.val ≤ 0x7A) ||
    c.val == 0x2B || c.val == 0x2D || c.val == 0x2E

/-- What a scan stands in: brackets, a string, or behind a backslash in a string. -/
inductive Inside
  | brackets
  | string
  | escape

/-- What follows the value that a scan stands in, with a number of open brackets. -/
def skim : Inside → ℕ → Text → Text
  | _, _, [] => []
  | .escape, depth, _ :: t => skim .string depth t
  | .string, depth, c :: t =>
    if c = ofChar '"' then if depth = 0 then t else skim .brackets depth t
    else if c = ofChar '\\' then skim .escape depth t
    else skim .string depth t
  | .brackets, depth, c :: t =>
    if c = ofChar '"' then skim .string depth t
    else if c = ofChar '[' ∨ c = ofChar '{' then skim .brackets (depth + 1) t
    else if c = ofChar ']' ∨ c = ofChar '}' then
      if depth = 1 then t else skim .brackets (depth - 1) t
    else skim .brackets depth t

/-- What follows the value at the start of a text. -/
def afterValue : Text → Text
  | [] => []
  | c :: t =>
    if c = ofChar '"' then skim .string 0 t
    else if c = ofChar '[' ∨ c = ofChar '{' then skim .brackets 1 t
    else (c :: t).dropWhile isAtomChar

/-! ### Strings -/

theorem skim_string_cons {c : CodePoint} (h₁ : c ≠ ofChar '"') (h₂ : c ≠ ofChar '\\') (depth : ℕ)
    (t : Text) : skim .string depth (c :: t) = skim .string depth t := by
  rw [skim, if_neg h₁, if_neg h₂]

theorem skim_backslash (c : CodePoint) (depth : ℕ) (t : Text) :
    skim .string depth (ofChar '\\' :: c :: t) = skim .string depth t := by
  rw [skim, if_neg (by decide), if_pos rfl, skim]

theorem skim_unicodeEscape (n depth : ℕ) (t : Text) :
    skim .string depth (unicodeEscape n ++ t) = skim .string depth t := by
  have hdigit : ∀ d < 16, ofChar d.digitChar ≠ ofChar '"' ∧ ofChar d.digitChar ≠ ofChar '\\' := by
    decide
  have hskip (k : ℕ) (t : Text) :
      skim .string depth (ofChar (k % 16).digitChar :: t) = skim .string depth t :=
    skim_string_cons (hdigit _ (Nat.mod_lt _ (by decide))).1 (hdigit _ (Nat.mod_lt _ (by decide))).2 _ _
  simp only [unicodeEscape, List.cons_append, List.nil_append]
  rw [skim_backslash, hskip, hskip, hskip, hskip]

theorem skim_escapeChar (ascii : Bool) (c : CodePoint) (depth : ℕ) (t : Text) :
    skim .string depth (escapeChar ascii c ++ t) = skim .string depth t := by
  unfold escapeChar
  split_ifs with h₁ h₂ h₃ h₄ h₅ h₆ h₇ h₈ h₉
  · exact skim_backslash _ _ _
  · exact skim_backslash _ _ _
  · exact skim_backslash _ _ _
  · exact skim_backslash _ _ _
  · exact skim_backslash _ _ _
  · exact skim_backslash _ _ _
  · exact skim_backslash _ _ _
  · exact skim_unicodeEscape _ _ _
  · rw [List.append_assoc, skim_unicodeEscape, skim_unicodeEscape]
  · refine skim_string_cons ?_ ?_ _ _
    · rintro rfl
      exact h₁ rfl
    · rintro rfl
      exact h₂ rfl

theorem skim_string (st : Style) (s : Text) (depth : ℕ) (t : Text) :
    skim .string depth (s.flatMap (escapeChar st.ensureAscii) ++ ofChar '"' :: t) =
      if depth = 0 then t else skim .brackets depth t := by
  induction s with
  | nil =>
    rw [List.flatMap_nil, List.nil_append, skim]
    exact if_pos rfl
  | cons c s ih => rw [List.flatMap_cons, List.append_assoc, skim_escapeChar, ih]

theorem skim_quote (st : Style) (s : Text) {depth : ℕ} (hdepth : depth ≠ 0) (t : Text) :
    skim .brackets depth (quote st s ++ t) = skim .brackets depth t := by
  rw [quote, List.cons_append, List.append_assoc, skim, if_pos rfl, List.singleton_append,
    skim_string, if_neg hdepth]

/-! ### Brackets -/

/-- A code point that neither opens nor closes anything. -/
def Neutral (c : CodePoint) : Prop :=
  c ≠ ofChar '"' ∧ ¬ (c = ofChar '[' ∨ c = ofChar '{') ∧ ¬ (c = ofChar ']' ∨ c = ofChar '}')

instance (c : CodePoint) : Decidable (Neutral c) := inferInstanceAs (Decidable (_ ∧ _))

theorem skim_neutral {text : Text} (h : ∀ c ∈ text, Neutral c) (depth : ℕ) (t : Text) :
    skim .brackets depth (text ++ t) = skim .brackets depth t := by
  induction text with
  | nil => rfl
  | cons c text ih =>
    obtain ⟨hquote, hopen, hclose⟩ := h c List.mem_cons_self
    rw [List.cons_append, skim, if_neg hquote, if_neg hopen, if_neg hclose,
      ih fun d hd => h d (List.mem_cons_of_mem _ hd)]

theorem skim_open {c : CodePoint} (h : c = ofChar '[' ∨ c = ofChar '{') (depth : ℕ) (t : Text) :
    skim .brackets depth (c :: t) = skim .brackets (depth + 1) t := by
  have hquote : c ≠ ofChar '"' := by rcases h with rfl | rfl <;> decide
  rw [skim, if_neg hquote, if_pos h]

theorem skim_close {c : CodePoint} (h : c = ofChar ']' ∨ c = ofChar '}') (depth : ℕ) (t : Text) :
    skim .brackets (depth + 1) (c :: t) = if depth = 0 then t else skim .brackets depth t := by
  have hquote : c ≠ ofChar '"' := by rcases h with rfl | rfl <;> decide
  have hopen : ¬ (c = ofChar '[' ∨ c = ofChar '{') := by rcases h with rfl | rfl <;> decide
  rw [skim, if_neg hquote, if_neg hopen, if_pos h]
  simp only [Nat.add_eq_right, Nat.add_sub_cancel]

theorem neutral_of_isAtomChar {c : CodePoint} (h : isAtomChar c = true) : Neutral c := by
  refine ⟨?_, ?_, ?_⟩
  · rintro rfl
    revert h
    decide
  · rintro (rfl | rfl) <;> revert h <;> decide
  · rintro (rfl | rfl) <;> revert h <;> decide

theorem neutral_lit {s : String} (h : (lit s).all (fun c => decide (Neutral c)) = true) :
    ∀ c ∈ lit s, Neutral c := fun c hc => of_decide_eq_true (List.all_eq_true.mp h c hc)

theorem isAtomChar_lit {s : String} (h : (lit s).all isAtomChar = true) :
    ∀ c ∈ lit s, isAtomChar c = true := List.all_eq_true.mp h

theorem isAtomChar_numeral {m : Numeral} (hm : m.Valid) : ∀ c ∈ m.text, isAtomChar c = true :=
  forall_numeral (fun c hc => by simp [isAtomChar, hc]) (isAtomChar_lit (by decide)) hm

theorem neutral_itemSep (st : Style) (b : Bool) :
    ∀ c ∈ (if b then [] else st.itemSep), Neutral c := by
  rcases st with ⟨_, _ | _⟩ <;> cases b
  · exact neutral_lit (by decide)
  · simp
  · exact neutral_lit (by decide)
  · simp

theorem neutral_keySep (st : Style) : ∀ c ∈ st.keySep, Neutral c := by
  rcases st with ⟨_, _ | _⟩
  · exact neutral_lit (by decide)
  · exact neutral_lit (by decide)

variable [PyFloat F]

/-- A value that is neither a string nor has brackets. -/
def isAtom : Json F → Bool
  | .null | .bool _ | .int _ | .float _ => true
  | _ => false

theorem isAtomChar_render (st : Style) {v : Json F} (hv : v.isAtom = true) :
    ∀ c ∈ v.render st, isAtomChar c = true := by
  cases v with
  | null => exact isAtomChar_lit (by decide)
  | bool b => cases b <;> exact isAtomChar_lit (by decide)
  | int n =>
    rw [render, intText_eq]
    exact isAtomChar_numeral (intNumeral_valid n)
  | float x =>
    rcases x with x | _ | _ | _
    · exact isAtomChar_numeral (PyFloat.repr_valid x)
    · exact isAtomChar_lit (by decide)
    · exact isAtomChar_lit (by decide)
    · exact isAtomChar_lit (by decide)
  | str s => cases hv
  | arr xs => cases hv
  | obj fs => cases hv

theorem skim_atom (st : Style) {v : Json F} (hv : v.isAtom = true) (depth : ℕ) (t : Text) :
    skim .brackets depth (v.render st ++ t) = skim .brackets depth t :=
  skim_neutral (fun c hc => neutral_of_isAtomChar (isAtomChar_render st hv c hc)) depth t

mutual
/-- Inside brackets a value is passed over. -/
theorem skim_render (st : Style) : ∀ (v : Json F) {depth : ℕ}, depth ≠ 0 → ∀ t : Text,
    skim .brackets depth (v.render st ++ t) = skim .brackets depth t
  | .null, _, _, _ => skim_atom st rfl _ _
  | .bool _, _, _, _ => skim_atom st rfl _ _
  | .int _, _, _, _ => skim_atom st rfl _ _
  | .float _, _, _, _ => skim_atom st rfl _ _
  | .str s, _, hdepth, t => by
    rw [render]
    exact skim_quote st s hdepth t
  | .arr xs, depth, hdepth, t => by
    rw [render, List.cons_append, skim_open (.inl rfl), List.append_assoc,
      skim_renderItems st xs (Nat.succ_ne_zero _), List.singleton_append, skim_close (.inl rfl),
      if_neg hdepth]
  | .obj fs, depth, hdepth, t => by
    rw [render, List.cons_append, skim_open (.inr rfl), List.append_assoc,
      skim_renderFields st fs (Nat.succ_ne_zero _), List.singleton_append, skim_close (.inr rfl),
      if_neg hdepth]

theorem skim_renderItems (st : Style) : ∀ (xs : List (Json F)) {depth : ℕ}, depth ≠ 0 →
    ∀ t : Text, skim .brackets depth (renderItems st xs ++ t) = skim .brackets depth t
  | [], _, _, _ => rfl
  | x :: xs, _, hdepth, t => by
    rw [renderItems, List.append_assoc, List.append_assoc, skim_render st x hdepth,
      skim_neutral (neutral_itemSep st _), skim_renderItems st xs hdepth]

theorem skim_renderFields (st : Style) : ∀ (fs : List (Text × Json F)) {depth : ℕ}, depth ≠ 0 →
    ∀ t : Text, skim .brackets depth (renderFields st fs ++ t) = skim .brackets depth t
  | [], _, _, _ => rfl
  | (k, v) :: fs, _, hdepth, t => by
    rw [renderFields, renderField]
    simp only [List.append_assoc]
    rw [skim_quote st k hdepth, skim_neutral (neutral_keySep st), skim_render st v hdepth,
      skim_neutral (neutral_itemSep st _), skim_renderFields st fs hdepth]
end

/-! ### Unambiguity -/

/-- What follows a value does not continue a number or a keyword. -/
def EndsAtom (t : Text) : Prop := ∀ c ∈ t.head?, isAtomChar c = false

theorem dropWhile_atom {text t : Text} (h : ∀ c ∈ text, isAtomChar c = true) (ht : EndsAtom t) :
    (text ++ t).dropWhile isAtomChar = t := by
  rw [List.dropWhile_append, List.dropWhile_eq_nil_iff.mpr h]
  cases t with
  | nil => rfl
  | cons c t => exact List.dropWhile_cons_of_neg (by rw [ht c rfl]; decide)

theorem afterValue_atom {c : CodePoint} (h : isAtomChar c = true) (t : Text) :
    afterValue (c :: t) = (c :: t).dropWhile isAtomChar := by
  obtain ⟨hquote, hopen, -⟩ := neutral_of_isAtomChar h
  rw [afterValue, if_neg hquote, if_neg hopen]

theorem afterValue_render (st : Style) (v : Json F) {t : Text} (ht : EndsAtom t) :
    afterValue (v.render st ++ t) = t := by
  have hatom (hv : v.isAtom = true) : afterValue (v.render st ++ t) = t := by
    have hchars := isAtomChar_render st hv
    obtain ⟨c, rest, hrender, -⟩ := starts_render st v
    rw [hrender] at hchars ⊢
    rw [List.cons_append, afterValue_atom (hchars c List.mem_cons_self), ← List.cons_append,
      dropWhile_atom hchars ht]
  cases v with
  | null => exact hatom rfl
  | bool b => exact hatom rfl
  | int n => exact hatom rfl
  | float x => exact hatom rfl
  | str s =>
    rw [render, quote, List.cons_append, afterValue, if_pos rfl, List.append_assoc,
      List.singleton_append, skim_string, if_pos rfl]
  | arr xs =>
    rw [render, List.cons_append, afterValue, if_neg (by decide), if_pos (.inl rfl),
      List.append_assoc, skim_renderItems st xs Nat.one_ne_zero, List.singleton_append]
    exact skim_close (.inl rfl) 0 t
  | obj fs =>
    rw [render, List.cons_append, afterValue, if_neg (by decide), if_pos (.inr rfl),
      List.append_assoc, skim_renderFields st fs Nat.one_ne_zero, List.singleton_append]
    exact skim_close (.inr rfl) 0 t

/-- A text begins with at most one rendered value. -/
theorem render_append_inj {st : Style} {v w : Json F} {s t : Text} (hs : EndsAtom s)
    (ht : EndsAtom t) (h : v.render st ++ s = w.render st ++ t) :
    v.render st = w.render st ∧ s = t := by
  have hrest : s = t := by
    rw [← afterValue_render st v hs, h, afterValue_render st w ht]
  subst hrest
  exact ⟨List.append_cancel_right h, rfl⟩

/-! ### Objects with the same keys -/

theorem endsAtom_itemSep (st : Style) {fs : Fields F} {t : Text} (ht : EndsAtom t) :
    EndsAtom ((if fs.isEmpty then [] else st.itemSep) ++ (renderFields st fs ++ t)) := by
  cases fs with
  | nil => exact ht
  | cons f fs =>
    intro c hc
    rcases st with ⟨_, _ | _⟩
    · obtain rfl : ofChar ',' = c := Option.some.inj hc
      decide
    · obtain rfl : ofChar ',' = c := Option.some.inj hc
      decide

/-- Fields with the same keys and the same text have values with the same texts. -/
theorem renderFields_append_inj {st : Style} : ∀ {fs gs : Fields F} {s t : Text},
    fs.map Prod.fst = gs.map Prod.fst → EndsAtom s → EndsAtom t →
    renderFields st fs ++ s = renderFields st gs ++ t →
      ∀ key, (field key fs).map (render st) = (field key gs).map (render st)
  | [], [], _, _, _, _, _, _ => fun _ => rfl
  | [], _ :: _, _, _, hkeys, _, _, _ => by cases hkeys
  | _ :: _, [], _, _, hkeys, _, _, _ => by cases hkeys
  | (k, v) :: fs, (j, w) :: gs, s, t, hkeys, hs, ht, h => by
    simp only [List.map_cons, List.cons.injEq] at hkeys
    obtain ⟨rfl, hrest⟩ := hkeys
    have hempty : fs.isEmpty = gs.isEmpty := by
      rw [← List.isEmpty_map (f := Prod.fst), hrest, List.isEmpty_map]
    simp only [renderFields, renderField, List.append_assoc] at h
    have hvalues := List.append_cancel_left (List.append_cancel_left h)
    obtain ⟨hrender, htail⟩ := render_append_inj (endsAtom_itemSep st hs) (endsAtom_itemSep st ht)
      hvalues
    rw [hempty] at htail
    have ih := renderFields_append_inj hrest hs ht (List.append_cancel_left htail)
    intro key
    simp only [field]
    split_ifs
    · rw [Option.map_some, Option.map_some, hrender]
    · exact ih key

omit [PyFloat F] in
theorem keys_sortDict {fs gs : Fields F} (h : fs.map Prod.fst = gs.map Prod.fst) :
    (sortDict fs).map Prod.fst = (sortDict gs).map Prod.fst := by
  have hsorted (hs : Fields F) : (sortDict hs).map Prod.fst =
      (hs.map Prod.fst).insertionSort fun a b => keyLe a b = true := by
    rw [← map_fst_sortFields hs, sortDict]
    exact List.map_insertionSort (r := fieldLe) (s := fun a b => keyLe a b = true) Prod.fst _
      fun _ _ _ _ => Iff.rfl
  rw [hsorted, hsorted, h]

/-- Objects with the same keys and the same canonical text agree at each key. -/
theorem render_get_eq {st : Style} {fs gs : Fields F} (hkeys : fs.map Prod.fst = gs.map Prod.fst)
    (hnodup : (fs.map Prod.fst).Nodup)
    (h : (Json.obj fs).sortKeys.render st = (Json.obj gs).sortKeys.render st) (key : Text) :
    (get fs key).sortKeys.render st = (get gs key).sortKeys.render st := by
  rw [sortKeys_obj, sortKeys_obj, render, render] at h
  have hfields := renderFields_append_inj (keys_sortDict hkeys)
    (fun c hc => by obtain rfl : ofChar '}' = c := Option.some.inj hc; decide)
    (fun c hc => by obtain rfl : ofChar '}' = c := Option.some.inj hc; decide)
    (List.cons.inj h).2 key
  rw [← get_sortDict hnodup, ← get_sortDict (hkeys ▸ hnodup), get, get]
  cases hf : field key (sortDict fs) with
  | none =>
    cases hg : field key (sortDict gs) with
    | none => rfl
    | some w =>
      rw [hf, hg] at hfields
      cases hfields
  | some v =>
    cases hg : field key (sortDict gs) with
    | none =>
      rw [hf, hg] at hfields
      cases hfields
    | some w =>
      rw [hf, hg] at hfields
      exact Option.some.inj hfields

end SentinelGRC.Python.Json
