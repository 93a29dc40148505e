import SentinelGRC.Python.JsonSort

/-! The code points a JSON text is made of: printable ASCII, and without
`ensure_ascii` also the unescaped code points of its strings and keys. Control
characters are always escaped, so a text breaks a line only at the breaks
beyond ASCII that a string brings along. -/

namespace SentinelGRC.Python.Json

variable {F : Type}

/-- Printable ASCII. -/
def Plain (c : CodePoint) : Prop := 0x20 ≤ c.val ∧ c.val < 0x7F

instance (c : CodePoint) : Decidable (Plain c) := inferInstanceAs (Decidable (_ ∧ _))

/-- A check of every code point of a string or of the keys of an object. -/
def charsNode (p : CodePoint → Bool) : Json F → Bool
  | .str s => s.all p
  | .obj fs => fs.all fun f => f.1.all p
  | _ => true

theorem sortStable_charsNode (p : CodePoint → Bool) : SortStable (charsNode (F := F) p) where
  arr _ := rfl
  obj fs := by
    have hkeys (gs : List (Text × Json F)) :
        charsNode p (.obj gs) = (gs.map Prod.fst).all fun k => k.all p := by
      simp only [charsNode, List.all_map]
      rfl
    rw [hkeys, hkeys, (keys_sortKeys fs).all_eq]

mutual
theorem all_true : ∀ v : Json F, v.all (fun _ => true) = true
  | .null | .bool _ | .int _ | .float _ | .str _ => rfl
  | .arr xs => allItems_true xs
  | .obj fs => allFields_true fs

theorem allItems_true : ∀ xs : List (Json F), allItems (fun _ => true) xs = true
  | [] => rfl
  | x :: xs => by rw [allItems, all_true x, allItems_true xs, Bool.and_self]

theorem allFields_true : ∀ fs : List (Text × Json F), allFields (fun _ => true) fs = true
  | [] => rfl
  | (_, v) :: fs => by rw [allFields, allField, all_true v, allFields_true fs, Bool.and_self]
end

/-! ### Escapes -/

theorem plain_unicodeEscape {n : ℕ} : ∀ c ∈ unicodeEscape n, Plain c := by
  have hdigit : ∀ d < 16, Plain (ofChar d.digitChar) := by decide
  have hmod (k : ℕ) : Plain (ofChar (k % 16).digitChar) := hdigit _ (Nat.mod_lt _ (by decide))
  intro c hc
  simp only [unicodeEscape, List.mem_cons, List.not_mem_nil, or_false] at hc
  rcases hc with rfl | rfl | rfl | rfl | rfl | rfl
  · decide
  · decide
  · exact hmod _
  · exact hmod _
  · exact hmod _
  · exact hmod _

theorem plain_lit {s : String} (h : (lit s).all (fun c => decide (Plain c)) = true) :
    ∀ c ∈ lit s, Plain c := fun c hc => of_decide_eq_true (List.all_eq_true.mp h c hc)

/-- An escaped code point is printable ASCII, or one that stands for itself. -/
theorem mem_escapeChar {ascii : Bool} {c d : CodePoint} (h : d ∈ escapeChar ascii c) :
    Plain d ∨ (ascii = false ∧ d = c ∧ 0x20 ≤ d.val) := by
  unfold escapeChar at h
  split_ifs at h with h₁ h₂ h₃ h₄ h₅ h₆ h₇ h₈ h₉
  · exact .inl (plain_lit (by decide) d h)
  · exact .inl (plain_lit (by decide) d h)
  · exact .inl (plain_lit (by decide) d h)
  · exact .inl (plain_lit (by decide) d h)
  · exact .inl (plain_lit (by decide) d h)
  · exact .inl (plain_lit (by decide) d h)
  · exact .inl (plain_lit (by decide) d h)
  · exact .inl (plain_unicodeEscape d h)
  · rcases List.mem_append.mp h with h | h
    · exact .inl (plain_unicodeEscape d h)
    · exact .inl (plain_unicodeEscape d h)
  · obtain rfl := List.mem_singleton.mp h
    rw [not_or, not_and] at h₈
    cases ascii with
    | false => exact .inr ⟨rfl, rfl, not_lt.mp h₈.1⟩
    | true => exact .inl ⟨not_lt.mp h₈.1, not_le.mp (h₈.2 rfl)⟩

/-! ### Texts -/

/-- What a code point of a text can be, when its strings pass a check. -/
def TextChar (st : Style) (p : CodePoint → Bool) (c : CodePoint) : Prop :=
  Plain c ∨ (st.ensureAscii = false ∧ p c = true ∧ 0x20 ≤ c.val)

variable {st : Style} {p : CodePoint → Bool}

theorem textChar_quote {s : Text} (hs : s.all p = true) : ∀ c ∈ quote st s, TextChar st p c := by
  intro c hc
  simp only [quote, List.mem_cons, List.mem_append, List.not_mem_nil, or_false,
    List.mem_flatMap] at hc
  rcases hc with rfl | ⟨d, hd, hc⟩ | rfl
  · exact .inl (by decide)
  · rcases mem_escapeChar hc with h | ⟨ha, rfl, h⟩
    · exact .inl h
    · exact .inr ⟨ha, List.all_eq_true.mp hs _ hd, h⟩
  · exact .inl (by decide)

theorem plain_of_isDigit {c : CodePoint} (h : isDigit c = true) : Plain c := by
  have := isDigit_iff.mp h
  exact ⟨by omega, by omega⟩

/-- What holds of digits and of the signs of a number holds of its code points. -/
theorem forall_numeral {P : CodePoint → Prop} (hdigit : ∀ c, isDigit c = true → P c)
    (hsign : ∀ c ∈ lit "-+.eE", P c) {m : Numeral} (hm : m.Valid) : ∀ c ∈ m.text, P c := by
  have hdigits {ds : Text} (hd : Digits ds) : ∀ c ∈ ds, P c := fun c hc => hdigit c (hd.2 c hc)
  intro c hc
  simp only [Numeral.text, List.mem_append] at hc
  rcases hc with hc | hc | hc | hc
  · cases hn : m.negative <;> simp only [hn] at hc
    · simp at hc
    · obtain rfl := List.mem_singleton.mp hc
      exact hsign _ (by decide)
  · exact hdigits hm.whole c hc
  · rcases hf : m.fraction with _ | f
    · rw [hf] at hc; cases hc
    · rw [hf] at hc
      rcases List.mem_cons.mp hc with rfl | hc
      · exact hsign _ (by decide)
      · exact hdigits (hm.fraction f hf) c hc
  · rcases he : m.exponent with _ | e
    · rw [he] at hc; cases hc
    · rw [he] at hc
      rcases List.mem_cons.mp hc with rfl | hc
      · cases e.upper <;> exact hsign _ (by decide)
      rcases List.mem_append.mp hc with hc | hc
      · rcases e with ⟨_, _ | _ | _, _⟩
        · cases hc
        · obtain rfl := List.mem_singleton.mp hc
          exact hsign _ (by decide)
        · obtain rfl := List.mem_singleton.mp hc
          exact hsign _ (by decide)
      · exact hdigits (hm.exponent e he) c hc

theorem plain_numeral {m : Numeral} (hm : m.Valid) : ∀ c ∈ m.text, Plain c :=
  forall_numeral (fun _ => plain_of_isDigit) (plain_lit (by decide)) hm

theorem plain_natText {n : ℕ} : ∀ c ∈ natText n, Plain c :=
  fun c hc => plain_of_isDigit (isDigit_natText c hc)

theorem plain_intText {n : ℤ} : ∀ c ∈ intText n, Plain c := by
  cases n with
  | ofNat n => exact plain_natText
  | negSucc n =>
    intro c hc
    rcases List.mem_cons.mp hc with rfl | hc
    · decide
    · exact plain_natText c hc

variable [PyFloat F]

theorem plain_renderNum (x : PyNum F) : ∀ c ∈ renderNum x, Plain c := by
  rcases x with x | _ | _ | _
  · exact plain_numeral (PyFloat.repr_valid x)
  · exact plain_lit (by decide)
  · exact plain_lit (by decide)
  · exact plain_lit (by decide)

omit [PyFloat F] in
theorem plain_itemSep (b : Bool) : ∀ c ∈ (if b then [] else st.itemSep), Plain c := by
  rcases st with ⟨_, _ | _⟩
  · cases b
    · exact plain_lit (by decide)
    · simp
  · cases b
    · exact plain_lit (by decide)
    · simp

omit [PyFloat F] in
theorem plain_keySep : ∀ c ∈ st.keySep, Plain c := by
  rcases st with ⟨_, _ | _⟩
  · exact plain_lit (by decide)
  · exact plain_lit (by decide)

mutual
theorem textChar_render : ∀ v : Json F, v.all (charsNode p) = true →
    ∀ c ∈ v.render st, TextChar st p c
  | .null, _, c, hc => .inl (plain_lit (by decide) c hc)
  | .bool true, _, c, hc => .inl (plain_lit (by decide) c hc)
  | .bool false, _, c, hc => .inl (plain_lit (by decide) c hc)
  | .int _, _, c, hc => .inl (plain_intText c hc)
  | .float x, _, c, hc => .inl (plain_renderNum x c hc)
  | .str _, hv, c, hc => textChar_quote hv c hc
  | .arr xs, hv, c, hc => by
    simp only [render, List.mem_cons, List.mem_append, List.not_mem_nil, or_false] at hc
    rcases hc with rfl | hc | rfl
    · exact .inl (by decide)
    · exact textChar_renderItems xs (by simpa [all, charsNode] using hv) c hc
    · exact .inl (by decide)
  | .obj fs, hv, c, hc => by
    simp only [all, charsNode, Bool.and_eq_true] at hv
    simp only [render, List.mem_cons, List.mem_append, List.not_mem_nil, or_false] at hc
    rcases hc with rfl | hc | rfl
    · exact .inl (by decide)
    · exact textChar_renderFields fs hv.1 hv.2 c hc
    · exact .inl (by decide)

theorem textChar_renderItems : ∀ xs : List (Json F), allItems (charsNode p) xs = true →
    ∀ c ∈ renderItems st xs, TextChar st p c
  | [], _, c, hc => by simp [renderItems] at hc
  | x :: xs, hxs, c, hc => by
    simp only [allItems, Bool.and_eq_true] at hxs
    rw [renderItems, List.append_assoc, List.mem_append, List.mem_append] at hc
    rcases hc with hc | hc | hc
    · exact textChar_render x hxs.1 c hc
    · exact .inl (plain_itemSep _ c hc)
    · exact textChar_renderItems xs hxs.2 c hc

theorem textChar_renderFields : ∀ fs : List (Text × Json F),
    (fs.all fun f => f.1.all p) = true → allFields (charsNode p) fs = true →
    ∀ c ∈ renderFields st fs, TextChar st p c
  | [], _, _, c, hc => by simp [renderFields] at hc
  | (k, v) :: fs, hk, hfs, c, hc => by
    simp only [List.all_cons, Bool.and_eq_true] at hk
    simp only [allFields, allField, Bool.and_eq_true] at hfs
    rw [renderFields, renderField] at hc
    simp only [List.append_assoc, List.mem_append] at hc
    rcases hc with hc | hc | hc | hc | hc
    · exact textChar_quote hk.1 c hc
    · exact .inl (plain_keySep c hc)
    · exact textChar_render v hfs.1 c hc
    · exact .inl (plain_itemSep _ c hc)
    · exact textChar_renderFields fs hk.2 hfs.2 c hc
end

/-- Control characters are always escaped. -/
theorem textChar_true (v : Json F) : ∀ c ∈ v.render st, TextChar st (fun _ => true) c := by
  have hchars : (charsNode (F := F) fun _ => true) = fun _ => true := by
    funext n
    cases n <;> simp [charsNode]
  refine textChar_render v ?_
  rw [hchars]
  exact all_true v

theorem le_of_mem_render (v : Json F) : ∀ c ∈ v.render st, 0x20 ≤ c.val := by
  intro c hc
  rcases textChar_true v c hc with ⟨h, -⟩ | ⟨-, -, h⟩
  · exact h
  · exact h

/-- Under `ensure_ascii` a text is printable ASCII, whatever its strings hold. -/
theorem plain_render (hst : st.ensureAscii = true) (v : Json F) : ∀ c ∈ v.render st, Plain c := by
  intro c hc
  rcases textChar_true v c hc with h | ⟨h, -⟩
  · exact h
  · rw [hst] at h
    cases h

/-! ### Surrogates -/

/-- No string or key of the value holds a lone surrogate. -/
def Scalars (v : Json F) : Prop := v.all (charsNode fun c => !isSurrogate c) = true

instance (v : Json F) : Decidable (Scalars v) := inferInstanceAs (Decidable (_ = true))

omit [PyFloat F] in
theorem scalars_sortKeys (v : Json F) : Scalars v.sortKeys ↔ Scalars v := by
  rw [Scalars, Scalars, (sortStable_charsNode _).all_sortKeys]

theorem isSurrogate_of_plain {c : CodePoint} (h : Plain c) : isSurrogate c = false := by
  have := h.2
  rw [isSurrogate_eq_false]
  omega

theorem scalar_render {v : Json F} (hv : Scalars v) : Scalar (v.render st) := by
  intro c hc
  rcases textChar_render v hv c hc with h | ⟨-, h, -⟩
  · exact isSurrogate_of_plain h
  · simpa using h

/-- Escapes aside, a text shows every code point of its strings. -/
theorem scalar_of_quote (hst : st.ensureAscii = false) {s : Text} (h : Scalar (quote st s)) :
    (s.all fun c => !isSurrogate c) = true := by
  rw [List.all_eq_true]
  intro c hc
  have hself : isSurrogate c = true → escapeChar false c = [c] := by
    intro hs
    simp only [isSurrogate, Bool.and_eq_true, decide_eq_true_eq] at hs
    unfold escapeChar
    repeat rw [if_neg (by omega)]
    rw [if_neg (by simp; omega)]
  by_contra hs
  simp only [Bool.not_eq_true', Bool.not_eq_false] at hs
  have hmem : c ∈ quote st s := by
    refine List.mem_cons_of_mem _ (List.mem_append_left _ (List.mem_flatMap.mpr ⟨c, hc, ?_⟩))
    rw [hst, hself hs]
    exact List.mem_singleton_self c
  rw [h c hmem] at hs
  cases hs

mutual
theorem scalars_of_render (hst : st.ensureAscii = false) : ∀ v : Json F,
    Scalar (v.render st) → v.all (charsNode fun c => !isSurrogate c) = true
  | .null, _ | .bool _, _ | .int _, _ | .float _, _ => rfl
  | .str _, h => scalar_of_quote hst h
  | .arr xs, h => by
    rw [render, scalar_cons, scalar_append] at h
    rw [all, scalars_of_renderItems hst xs h.2.1]
    rfl
  | .obj fs, h => by
    rw [render, scalar_cons, scalar_append] at h
    obtain ⟨hkeys, hvals⟩ := scalars_of_renderFields hst fs h.2.1
    rw [all, charsNode, hkeys, hvals]
    rfl

theorem scalars_of_renderItems (hst : st.ensureAscii = false) : ∀ xs : List (Json F),
    Scalar (renderItems st xs) → allItems (charsNode fun c => !isSurrogate c) xs = true
  | [], _ => rfl
  | x :: xs, h => by
    rw [renderItems, scalar_append, scalar_append] at h
    rw [allItems, scalars_of_render hst x h.1.1, scalars_of_renderItems hst xs h.2]
    rfl

theorem scalars_of_renderFields (hst : st.ensureAscii = false) : ∀ fs : List (Text × Json F),
    Scalar (renderFields st fs) → (fs.all fun f => f.1.all fun c => !isSurrogate c) = true ∧
      allFields (charsNode fun c => !isSurrogate c) fs = true
  | [], _ => ⟨rfl, rfl⟩
  | (k, v) :: fs, h => by
    rw [renderFields, renderField, scalar_append, scalar_append, scalar_append, scalar_append] at h
    obtain ⟨hkeys, hvals⟩ := scalars_of_renderFields hst fs h.2
    have hk := scalar_of_quote hst h.1.1.1.1
    rw [List.all_cons, allFields, allField, hkeys, hvals, scalars_of_render hst v h.1.1.2]
    exact ⟨by simpa using hk, rfl⟩
end

/-! ### Lines -/

/-- The line breaks that `ensure_ascii=False` leaves as they are. -/
def isUnescapedBreak (c : CodePoint) : Bool := c.val == 0x85 || c.val == 0x2028 || c.val == 0x2029

/-- No string or key of the value holds such a break. -/
def Framed (v : Json F) : Prop := v.all (charsNode fun c => !isUnescapedBreak c) = true

instance (v : Json F) : Decidable (Framed v) := inferInstanceAs (Decidable (_ = true))

theorem isLineBreak_render {v : Json F} (hv : Framed v) :
    ∀ c ∈ v.render st, isLineBreak c = false := by
  intro c hc
  have h : ¬ (c.val = 0x85 ∨ c.val = 0x2028 ∨ c.val = 0x2029) ∧ 0x20 ≤ c.val := by
    rcases textChar_render v hv c hc with ⟨h₁, h₂⟩ | ⟨-, h₁, h₂⟩
    · exact ⟨by omega, h₁⟩
    · simp only [isUnescapedBreak, Bool.not_eq_true', Bool.or_eq_false_iff, beq_eq_false_iff_ne] at h₁
      exact ⟨by omega, h₂⟩
  rw [← Bool.not_eq_true]
  intro hb
  simp only [isLineBreak, Bool.or_eq_true, Bool.and_eq_true, decide_eq_true_eq, beq_iff_eq] at hb
  omega

end SentinelGRC.Python.Json
