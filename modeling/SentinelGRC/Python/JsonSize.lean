import SentinelGRC.Python.JsonText

/-! How long a JSON text is. Sorting the keys moves fields around and changes no
length. An ASCII text is as many bytes as code points, and a text that leaves its
strings unescaped takes no more bytes than the ASCII text of the same value. -/

namespace SentinelGRC.Python

/-! ### Bytes -/

/-- The number of bytes of a text in UTF-8. -/
def utf8Length (t : Text) : ℕ := (t.map fun c => (toChar c).utf8Size).sum

theorem length_encodeUtf8 {t : Text} {bytes : List UInt8} (h : encodeUtf8 t = .ok bytes) :
    bytes.length = utf8Length t := by
  obtain ⟨-, rfl⟩ := encodeUtf8_eq_ok.mp h
  simp only [List.length_flatMap, String.length_utf8EncodeChar, utf8Length]

theorem utf8Length_append (s t : Text) : utf8Length (s ++ t) = utf8Length s + utf8Length t := by
  simp only [utf8Length, List.map_append, List.sum_append]

theorem utf8Length_cons (c : CodePoint) (t : Text) :
    utf8Length (c :: t) = (toChar c).utf8Size + utf8Length t := by
  simp only [utf8Length, List.map_cons, List.sum_cons]

namespace Json

variable {F : Type} {st : Style}

theorem toNat_toChar {c : CodePoint} (h : isSurrogate c = false) : (toChar c).val.toNat = c.val :=
  congrArg Fin.val (ofChar_toChar h)

theorem utf8Size_of_plain {c : CodePoint} (h : Plain c) : (toChar c).utf8Size = 1 := by
  rw [Char.utf8Size_eq_one_iff, UInt32.le_iff_toNat_le, toNat_toChar (isSurrogate_of_plain h)]
  have := h.2
  simp only [UInt32.reduceToNat]
  omega

/-- Only the code points beyond the basic plane take four bytes. -/
theorem utf8Size_le {c : CodePoint} (h : c.val < 0x10000) : (toChar c).utf8Size ≤ 3 := by
  have hne : (toChar c).utf8Size ≠ 4 := by
    rw [Ne, Char.utf8Size_eq_four_iff, UInt32.lt_iff_toNat_lt]
    simp only [UInt32.reduceToNat]
    cases hc : isSurrogate c with
    | false =>
      rw [toNat_toChar hc]
      omega
    | true =>
      have hinvalid : ¬ c.val.isValidChar := by
        have hc : ¬ isSurrogate c = false := by simp [hc]
        rw [isSurrogate_eq_false] at hc
        simp only [Nat.isValidChar]
        omega
      rw [toChar, Char.ofNat, dif_neg hinvalid]
      decide
  have := (toChar c).utf8Size_le_four
  omega

theorem utf8Length_of_plain {t : Text} (h : ∀ c ∈ t, Plain c) : utf8Length t = t.length := by
  induction t with
  | nil => rfl
  | cons c t ih =>
    rw [utf8Length_cons, utf8Size_of_plain (h c List.mem_cons_self),
      ih fun d hd => h d (List.mem_cons_of_mem c hd), List.length_cons, Nat.add_comm]

/-- Escaping a code point makes it no shorter. -/
theorem utf8Length_escapeChar (c : CodePoint) :
    utf8Length (escapeChar false c) ≤ (escapeChar true c).length := by
  by_cases h : 0x7F ≤ c.val
  · have hunescaped : escapeChar false c = [c] := by
      unfold escapeChar
      rw [if_neg (by omega), if_neg (by omega), if_neg (by omega), if_neg (by omega),
        if_neg (by omega), if_neg (by omega), if_neg (by omega), if_neg (by simp; omega)]
    have hescaped : escapeChar true c = if c.val < 0x10000 then unicodeEscape c.val
        else unicodeEscape (0xD800 + (c.val - 0x10000) / 0x400) ++
          unicodeEscape (0xDC00 + (c.val - 0x10000) % 0x400) := by
      unfold escapeChar
      rw [if_neg (by omega), if_neg (by omega), if_neg (by omega), if_neg (by omega),
        if_neg (by omega), if_neg (by omega), if_neg (by omega), if_pos (by simp; omega)]
    rw [hunescaped, hescaped, utf8Length_cons]
    by_cases hbasic : c.val < 0x10000
    · have := utf8Size_le hbasic
      rw [if_pos hbasic]
      simp only [utf8Length, List.map_nil, List.sum_nil, unicodeEscape, List.length_cons, List.length_nil]
      omega
    · have := (toChar c).utf8Size_le_four
      rw [if_neg hbasic]
      simp only [utf8Length, List.map_nil, List.sum_nil, unicodeEscape, List.length_append,
        List.length_cons, List.length_nil]
      omega
  · have hsame : escapeChar false c = escapeChar true c := by
      unfold escapeChar
      simp only [h, and_false, or_false]
    have hplain : ∀ d ∈ escapeChar true c, Plain d := by
      intro d hd
      rcases mem_escapeChar hd with hd | ⟨hascii, -⟩
      · exact hd
      · cases hascii
    rw [hsame, utf8Length_of_plain hplain]

theorem utf8Length_quote (b : Bool) (s : Text) :
    utf8Length (quote ⟨false, b⟩ s) ≤ (quote ⟨true, b⟩ s).length := by
  have hbody : utf8Length (s.flatMap (escapeChar false)) ≤ (s.flatMap (escapeChar true)).length := by
    induction s with
    | nil => simp [utf8Length]
    | cons c s ih =>
      have := utf8Length_escapeChar c
      rw [List.flatMap_cons, List.flatMap_cons, utf8Length_append, List.length_append]
      omega
  have hmark : (toChar (ofChar '"')).utf8Size = 1 := by decide
  rw [quote, quote, utf8Length_cons, utf8Length_append, utf8Length_cons, hmark, List.length_cons,
    List.length_append, List.length_singleton]
  simp only [utf8Length, List.map_nil, List.sum_nil] at hbody ⊢
  omega

/-! ### Sorting -/

variable [PyFloat F]

theorem length_renderFields (st : Style) (fs : List (Text × Json F)) :
    (renderFields st fs).length = (fs.map fun f => (renderField st f).length).sum +
      (fs.length - 1) * st.itemSep.length := by
  induction fs with
  | nil => simp [renderFields]
  | cons f fs ih =>
    rw [renderFields, List.length_append, List.length_append, ih, List.map_cons, List.sum_cons,
      List.length_cons, Nat.add_sub_cancel]
    cases fs with
    | nil => simp
    | cons g fs =>
      rw [if_neg (by simp), List.length_cons, Nat.add_sub_cancel, Nat.succ_mul]
      omega

mutual
/-- Sorting the keys keeps the length of the text. -/
theorem length_render_sortKeys (st : Style) : ∀ v : Json F,
    (v.sortKeys.render st).length = (v.render st).length
  | .null | .bool _ | .int _ | .float _ | .str _ => rfl
  | .arr xs => by
    rw [sortKeys, render, render, List.length_cons, List.length_cons, List.length_append,
      List.length_append, length_renderItems_sortItems st xs]
  | .obj fs => by
    have hperm := List.perm_insertionSort fieldLe (sortFields fs)
    rw [sortKeys, render, render, List.length_cons, List.length_cons, List.length_append,
      List.length_append, length_renderFields, length_renderFields, (hperm.map _).sum_nat,
      sum_renderField_sortFields st fs, hperm.length_eq, sortFields_eq_map, List.length_map]

theorem length_renderItems_sortItems (st : Style) : ∀ xs : List (Json F),
    (renderItems st (sortItems xs)).length = (renderItems st xs).length
  | [] => rfl
  | x :: xs => by
    have hempty : (sortItems xs).isEmpty = xs.isEmpty := by cases xs <;> rfl
    rw [sortItems, renderItems, renderItems, hempty, List.length_append, List.length_append,
      List.length_append, List.length_append, length_render_sortKeys st x,
      length_renderItems_sortItems st xs]

theorem sum_renderField_sortFields (st : Style) : ∀ fs : List (Text × Json F),
    ((sortFields fs).map fun f => (renderField st f).length).sum =
      (fs.map fun f => (renderField st f).length).sum
  | [] => rfl
  | (k, v) :: fs => by
    rw [sortFields, sortField, List.map_cons, List.map_cons, List.sum_cons, List.sum_cons, renderField,
      renderField, List.length_append, List.length_append, List.length_append, List.length_append,
      length_render_sortKeys st v, sum_renderField_sortFields st fs]
end

/-! ### Unescaped texts -/

omit [PyFloat F] in
theorem utf8Length_itemSep (b empty : Bool) :
    utf8Length (if empty then [] else (⟨false, b⟩ : Style).itemSep) =
      (if empty then [] else (⟨true, b⟩ : Style).itemSep).length :=
  utf8Length_of_plain (plain_itemSep empty)

mutual
/-- Unescaped, a value takes no more bytes than in ASCII. -/
theorem utf8Length_render (b : Bool) : ∀ v : Json F,
    utf8Length (v.render ⟨false, b⟩) ≤ (v.render ⟨true, b⟩).length
  | .null => (utf8Length_of_plain (plain_lit (by decide))).le
  | .bool true => (utf8Length_of_plain (plain_lit (by decide))).le
  | .bool false => (utf8Length_of_plain (plain_lit (by decide))).le
  | .int _ => (utf8Length_of_plain plain_intText).le
  | .float x => (utf8Length_of_plain (plain_renderNum x)).le
  | .str s => utf8Length_quote b s
  | .arr xs => by
    have hmark : (toChar (ofChar '[')).utf8Size = 1 ∧ utf8Length [ofChar ']'] = 1 := by decide
    have := utf8Length_renderItems b xs
    rw [render, render, utf8Length_cons, utf8Length_append, hmark.1, hmark.2, List.length_cons,
      List.length_append, List.length_singleton]
    omega
  | .obj fs => by
    have hmark : (toChar (ofChar '{')).utf8Size = 1 ∧ utf8Length [ofChar '}'] = 1 := by decide
    have := utf8Length_renderFields b fs
    rw [render, render, utf8Length_cons, utf8Length_append, hmark.1, hmark.2, List.length_cons,
      List.length_append, List.length_singleton]
    omega

theorem utf8Length_renderItems (b : Bool) : ∀ xs : List (Json F),
    utf8Length (renderItems ⟨false, b⟩ xs) ≤ (renderItems ⟨true, b⟩ xs).length
  | [] => le_refl 0
  | x :: xs => by
    have := utf8Length_render b x
    have := utf8Length_renderItems b xs
    rw [renderItems, renderItems, utf8Length_append, utf8Length_append, List.length_append,
      List.length_append, utf8Length_itemSep]
    omega

theorem utf8Length_renderFields (b : Bool) : ∀ fs : List (Text × Json F),
    utf8Length (renderFields ⟨false, b⟩ fs) ≤ (renderFields ⟨true, b⟩ fs).length
  | [] => le_refl 0
  | (k, v) :: fs => by
    have := utf8Length_quote b k
    have := utf8Length_render b v
    have := utf8Length_renderFields b fs
    have hsep : utf8Length (⟨false, b⟩ : Style).keySep = (⟨true, b⟩ : Style).keySep.length :=
      utf8Length_of_plain plain_keySep
    rw [renderFields, renderFields, renderField, renderField, utf8Length_append, utf8Length_append,
      utf8Length_append, utf8Length_append, List.length_append, List.length_append,
      List.length_append, List.length_append, utf8Length_itemSep, hsep]
    omega
end

end Json

end SentinelGRC.Python
