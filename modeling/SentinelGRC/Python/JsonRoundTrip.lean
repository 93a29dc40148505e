import Mathlib.Data.List.Chain
import SentinelGRC.Python.JsonLoads
import SentinelGRC.Python.JsonText

/-! `json.loads` undoes `json.dumps`. The text of a value scans back to the
value in front of anything that cannot continue a number, for integers within the
digit limit, objects with distinct keys and, under `ensure_ascii`, strings that are
joined: no high surrogate stands before a low one, since the two escapes would be
read as one code point. -/

namespace SentinelGRC.Python

variable {F : Type}

/-! ### Strings -/

theorem hexValue_digitChar : ∀ n < 16, hexValue (ofChar n.digitChar) = some n := by decide

theorem hex4_unicodeEscape {n : ℕ} (hn : n < 0x10000) :
    hex4 (ofChar (n / 0x1000 % 16).digitChar) (ofChar (n / 0x100 % 16).digitChar)
      (ofChar (n / 0x10 % 16).digitChar) (ofChar (n % 16).digitChar) = some n := by
  have h (k : ℕ) : hexValue (ofChar (k % 16).digitChar) = some (k % 16) :=
    hexValue_digitChar _ (Nat.mod_lt _ (by decide))
  simp only [hex4, h, Option.bind_eq_bind, Option.bind_some, Option.pure_def, Option.some.injEq]
  omega

/-- A code unit outside the high surrogates is read on its own. -/
theorem scanString_unicodeEscape {n : ℕ} (hn : n < 0x10000) (hs : ¬ (0xD800 ≤ n ∧ n ≤ 0xDBFF))
    (t : Text) :
    scanString (Json.unicodeEscape n ++ t) = consChar (ofCodeUnit n) (scanString t) := by
  have hu : (ofChar 'u').val ≠ 0x22 := by decide
  simp only [Json.unicodeEscape, List.cons_append, List.nil_append]
  rw [scanString]
  simp only [val_ofChar, hex4_unicodeEscape hn]
  split
  · contradiction
  · simp only [↓reduceIte, Char.reduceToNat]
    split
    · rename_i b u l₁ l₂ l₃ l₄ tail
      have hc : ¬ (0xD800 ≤ n ∧ n ≤ 0xDBFF ∧ b.val = 0x5C ∧ u = ofChar 'u') :=
        fun h => hs ⟨h.1, h.2.1⟩
      rw [if_neg hc]
    · rfl

theorem scanString_surrogatePair {high low : ℕ} (hh : 0xD800 ≤ high ∧ high ≤ 0xDBFF)
    (hl : 0xDC00 ≤ low ∧ low ≤ 0xDFFF) (t : Text) :
    scanString (Json.unicodeEscape high ++ Json.unicodeEscape low ++ t) =
      consChar (ofCodeUnit (joinSurrogates high low)) (scanString t) := by
  have h1 := hex4_unicodeEscape (n := high) (by omega)
  have h2 := hex4_unicodeEscape (n := low) (by omega)
  simp only [Json.unicodeEscape, List.cons_append, List.nil_append]
  rw [scanString]
  simp only [val_ofChar, h1, h2, Char.reduceToNat, ↓reduceIte, hh, hl, and_self]
  simp

theorem scanString_simpleEscape {e d : CodePoint} (he : e ≠ ofChar 'u')
    (hd : simpleEscape e = some d) (t : Text) :
    scanString (0x5C :: e :: t) = consChar d (scanString t) := by
  rw [scanString.eq_def]
  simp only
  rw [if_neg (by decide), if_pos (by decide), if_neg he, hd]

theorem scanString_plain {c : CodePoint} (h₁ : c.val ≠ 0x22) (h₂ : c.val ≠ 0x5C)
    (h₃ : ¬ c.val < 0x20) (t : Text) : scanString (c :: t) = consChar c (scanString t) := by
  rw [scanString.eq_def]
  simp only
  rw [if_neg h₁, if_neg h₂, if_neg h₃]

theorem ofCodeUnit_eq {n : ℕ} {c : CodePoint} (h : n = c.val) : ofCodeUnit n = c := by
  subst h
  exact Fin.ext (Nat.mod_eq_of_lt c.isLt)

def isHighSurrogate (c : CodePoint) : Bool := 0xD800 ≤ c.val && c.val ≤ 0xDBFF

def isLowSurrogate (c : CodePoint) : Bool := 0xDC00 ≤ c.val && c.val ≤ 0xDFFF

/-- No high surrogate stands before a low one; every text that `json.loads` reads is so. -/
def Joined (t : Text) : Prop :=
  t.IsChain fun c d => (isHighSurrogate c && isLowSurrogate d) = false

instance (t : Text) : Decidable (Joined t) := inferInstanceAs (Decidable (List.IsChain _ _))

theorem joined_of_scalar {t : Text} (h : Scalar t) : Joined t := by
  have hhigh (c : CodePoint) (hc : c ∈ t) : isHighSurrogate c = false := by
    have := isSurrogate_eq_false.mp (h c hc)
    rw [Bool.eq_false_iff]
    simp only [isHighSurrogate, ne_eq, Bool.and_eq_true, decide_eq_true_eq]
    omega
  induction t with
  | nil => exact .nil
  | cons c t ih =>
    obtain ⟨hc, ht⟩ := scalar_cons.mp h
    cases t with
    | nil => exact .singleton c
    | cons d t =>
      refine .cons_cons ?_ (ih ht fun e he => hhigh e (List.mem_cons_of_mem c he))
      rw [hhigh c List.mem_cons_self, Bool.false_and]

/-- A text that does not begin with the escape of a low surrogate. -/
def NoLow (t : Text) : Prop :=
  ∀ u l₁ l₂ l₃ l₄ tail, t = 0x5C :: u :: l₁ :: l₂ :: l₃ :: l₄ :: tail → u = ofChar 'u' →
    ∃ low, hex4 l₁ l₂ l₃ l₄ = some low ∧ ¬ (0xDC00 ≤ low ∧ low ≤ 0xDFFF)

theorem noLow_unicodeEscape {n : ℕ} (hn : n < 0x10000) (hlow : ¬ (0xDC00 ≤ n ∧ n ≤ 0xDFFF))
    (t : Text) : NoLow (Json.unicodeEscape n ++ t) := by
  intro u l₁ l₂ l₃ l₄ tail h _
  simp only [Json.unicodeEscape, List.cons_append, List.nil_append, List.cons.injEq] at h
  obtain ⟨-, -, rfl, rfl, rfl, rfl, -⟩ := h
  exact ⟨n, hex4_unicodeEscape hn, hlow⟩

theorem noLow_escapeChar {c : CodePoint} (hc : isLowSurrogate c = false) (t : Text) :
    NoLow (Json.escapeChar true c ++ t) := by
  have hlt := c.isLt
  have hlow : ¬ (0xDC00 ≤ c.val ∧ c.val ≤ 0xDFFF) := by
    simpa [isLowSurrogate] using hc
  have hsimple {e : CodePoint} (he : e ≠ ofChar 'u') : NoLow (0x5C :: e :: t) := by
    intro u l₁ l₂ l₃ l₄ tail h hu
    obtain ⟨rfl, -⟩ := List.cons.inj (List.cons.inj h).2
    exact absurd hu he
  unfold Json.escapeChar
  split_ifs with h₁ h₂ h₃ h₄ h₅ h₆ h₇ h₈ h₉
  · exact hsimple (e := ofChar '"') (by decide)
  · exact hsimple (e := ofChar '\\') (by decide)
  · exact hsimple (e := ofChar 'n') (by decide)
  · exact hsimple (e := ofChar 'r') (by decide)
  · exact hsimple (e := ofChar 't') (by decide)
  · exact hsimple (e := ofChar 'f') (by decide)
  · exact hsimple (e := ofChar 'b') (by decide)
  · exact noLow_unicodeEscape h₉ hlow t
  · rw [List.append_assoc]
    exact noLow_unicodeEscape (by omega) (by omega) _
  · intro u l₁ l₂ l₃ l₄ tail h _
    obtain ⟨rfl, -⟩ := List.cons.inj h
    exact absurd rfl h₂

theorem scanString_highSurrogate {n : ℕ} (hn : n < 0x10000) {t : Text} (ht : NoLow t) :
    scanString (Json.unicodeEscape n ++ t) = consChar (ofCodeUnit n) (scanString t) := by
  simp only [Json.unicodeEscape, List.cons_append, List.nil_append]
  rw [scanString]
  simp only [val_ofChar, hex4_unicodeEscape hn]
  split
  · contradiction
  · simp only [↓reduceIte, Char.reduceToNat]
    split
    · rename_i b u l₁ l₂ l₃ l₄ tail
      split_ifs with hescape
      · obtain rfl : b = 0x5C := Fin.ext hescape.2.2.1
        obtain ⟨low, hlow, hrange⟩ := ht u l₁ l₂ l₃ l₄ tail rfl hescape.2.2.2
        rw [hlow]
        simp only
        rw [if_neg hrange]
      · rfl
    · rfl

/-- One escaped character is read back as itself. -/
theorem scanString_escapeChar {ascii : Bool} {c : CodePoint} {t : Text}
    (hc : ascii = true → isHighSurrogate c = true → NoLow t) :
    scanString (Json.escapeChar ascii c ++ t) = consChar c (scanString t) := by
  have hlt := c.isLt
  unfold Json.escapeChar
  split_ifs with h₁ h₂ h₃ h₄ h₅ h₆ h₇ h₈ h₉
  · obtain rfl : c = 0x22 := Fin.ext h₁
    exact scanString_simpleEscape (by decide) (by decide) t
  · obtain rfl : c = 0x5C := Fin.ext h₂
    exact scanString_simpleEscape (by decide) (by decide) t
  · obtain rfl : c = 0xA := Fin.ext h₃
    exact scanString_simpleEscape (by decide) (by decide) t
  · obtain rfl : c = 0xD := Fin.ext h₄
    exact scanString_simpleEscape (by decide) (by decide) t
  · obtain rfl : c = 0x9 := Fin.ext h₅
    exact scanString_simpleEscape (by decide) (by decide) t
  · obtain rfl : c = 0xC := Fin.ext h₆
    exact scanString_simpleEscape (by decide) (by decide) t
  · obtain rfl : c = 0x8 := Fin.ext h₇
    exact scanString_simpleEscape (by decide) (by decide) t
  · by_cases hs : 0xD800 ≤ c.val ∧ c.val ≤ 0xDBFF
    · have ha : ascii = true := by
        rcases h₈ with h | ⟨ha, -⟩
        · omega
        · exact ha
      rw [scanString_highSurrogate h₉ (hc ha (by simp [isHighSurrogate, hs])), ofCodeUnit_eq rfl]
    · rw [scanString_unicodeEscape h₉ hs, ofCodeUnit_eq rfl]
  · have hj : joinSurrogates (0xD800 + (c.val - 0x10000) / 0x400)
        (0xDC00 + (c.val - 0x10000) % 0x400) = c.val := by
      unfold joinSurrogates
      omega
    rw [scanString_surrogatePair (by omega) (by omega), ofCodeUnit_eq hj]
  · exact scanString_plain h₁ h₂ (fun h => h₈ (.inl h)) t

theorem scanString_quote {ascii : Bool} {s : Text} (hs : ascii = true → Joined s) (rest : Text) :
    scanString (s.flatMap (Json.escapeChar ascii) ++ ofChar '"' :: rest) = .ok (s, rest) := by
  induction s with
  | nil =>
    rw [List.flatMap_nil, List.nil_append, scanString.eq_def]
    simp only
    rw [if_pos (by decide)]
  | cons c s ih =>
    have hnext (ha : ascii = true) (hc : isHighSurrogate c = true) :
        NoLow (s.flatMap (Json.escapeChar ascii) ++ ofChar '"' :: rest) := by
      cases s with
      | nil =>
        intro u l₁ l₂ l₃ l₄ tail h _
        obtain ⟨hquote, -⟩ := List.cons.inj h
        exact absurd hquote (by decide)
      | cons d s =>
        have hd := (List.isChain_cons_cons.mp (hs ha)).1
        rw [hc, Bool.true_and] at hd
        subst ha
        rw [List.flatMap_cons, List.append_assoc]
        exact noLow_escapeChar hd _
    rw [List.flatMap_cons, List.append_assoc, scanString_escapeChar hnext,
      ih (fun h => (List.isChain_cons.mp (hs h)).2)]
    rfl

/-! ### Numbers -/

/-- Text that cannot continue a number literal. -/
def EndsNumber (t : Text) : Prop :=
  ∀ c ∈ t.head?, isDigit c = false ∧ c ≠ ofChar '.' ∧ c ≠ ofChar 'e' ∧ c ≠ ofChar 'E'

theorem takeWhile_digits {ds t : Text} (hd : ∀ c ∈ ds, isDigit c = true)
    (ht : ∀ c ∈ t.head?, isDigit c = false) :
    (ds ++ t).takeWhile isDigit = ds ∧ (ds ++ t).dropWhile isDigit = t := by
  induction ds with
  | nil =>
    cases t with
    | nil => simp
    | cons c t => simp [ht c (by simp)]
  | cons d ds ih =>
    obtain ⟨h₁, h₂⟩ := ih fun c hc => hd c (List.mem_cons_of_mem _ hc)
    simp [hd d (by simp), h₁, h₂]

theorem scanWhole_text {m : Numeral} (hm : m.Valid) {t : Text}
    (ht : ∀ c ∈ t.head?, isDigit c = false) : scanWhole (m.whole ++ t) = some (m.whole, t) := by
  obtain ⟨hne, hds⟩ := hm.whole
  obtain ⟨h₁, h₂⟩ := takeWhile_digits hds ht
  rcases hw : m.whole with _ | ⟨c, ds⟩
  · exact absurd hw hne
  · rw [hw] at h₁ h₂ hds
    simp only [List.cons_append] at h₁ h₂ ⊢
    rw [scanWhole]
    split_ifs with h0 hd
    · -- a leading zero stands alone
      have hl := hm.leading
      rw [hw] at hl
      obtain rfl : ds = [] := by
        by_contra hds'
        exact hl (by simpa using hds') (by simp [h0])
      rfl
    · rw [h₁, h₂]
    · exact absurd (hds c (by simp)) hd

theorem scanFraction_text {f t : Text} (hf : Digits f) (ht : ∀ c ∈ t.head?, isDigit c = false) :
    scanFraction (ofChar '.' :: f ++ t) = (some f, t) := by
  obtain ⟨h₁, h₂⟩ := takeWhile_digits hf.2 ht
  rw [List.cons_append, scanFraction, h₁, h₂, if_pos ⟨rfl, hf.1⟩]

theorem scanFraction_none {t : Text} (ht : ∀ c ∈ t.head?, c ≠ ofChar '.') :
    scanFraction t = (none, t) := by
  cases t with
  | nil => rfl
  | cons c t => rw [scanFraction, if_neg (fun h => ht c (by simp) h.1)]

theorem scanExponentSign_text {e : Exponent} (he : Digits e.digits) (t : Text) :
    scanExponentSign (exponentSign e.sign ++ e.digits ++ t) = (e.sign, e.digits ++ t) := by
  rcases hs : e.sign with _ | _ | _
  · rcases hd : e.digits with _ | ⟨c, ds⟩
    · exact absurd hd he.1
    · have hc := isDigit_iff.mp (he.2 c (by simp [hd]))
      have hm : c ≠ ofChar '-' := by rintro rfl; simp at hc
      have hp : c ≠ ofChar '+' := by rintro rfl; simp at hc
      simp [exponentSign, scanExponentSign, hm, hp]
  · have hp : ofChar '+' ≠ ofChar '-' := by decide
    simp [exponentSign, scanExponentSign, hp]
  · simp [exponentSign, scanExponentSign]

theorem scanExponent_text {e : Exponent} (he : Digits e.digits) {t : Text}
    (ht : ∀ c ∈ t.head?, isDigit c = false) : scanExponent (e.text ++ t) = (some e, t) := by
  obtain ⟨h₁, h₂⟩ := takeWhile_digits he.2 ht
  have hs := scanExponentSign_text he t
  rcases e with ⟨upper, sign, digits⟩
  have hl : (ofChar (if upper then 'E' else 'e') = ofChar 'e' ∨
      ofChar (if upper then 'E' else 'e') = ofChar 'E') := by cases upper <;> simp
  have hu : (ofChar (if upper then 'E' else 'e') == ofChar 'E') = upper := by
    cases upper <;> decide
  simp only [Exponent.text, List.cons_append] at hs ⊢
  rw [scanExponent, hs]
  simp only [h₁, h₂]
  rw [if_pos ⟨hl, he.1⟩, hu]

theorem scanExponent_none {t : Text} (ht : ∀ c ∈ t.head?, c ≠ ofChar 'e' ∧ c ≠ ofChar 'E') :
    scanExponent t = (none, t) := by
  cases t with
  | nil => rfl
  | cons c t =>
    obtain ⟨h₁, h₂⟩ := ht c (by simp)
    simp [scanExponent, h₁, h₂]

theorem head_exponentText {e : Option Exponent} {t : Text} (ht : EndsNumber t) :
    ∀ c ∈ (exponentText e ++ t).head?, isDigit c = false ∧ c ≠ ofChar '.' := by
  intro c hc
  rcases e with _ | ⟨_ | _, s, ds⟩
  · exact ⟨(ht c hc).1, (ht c hc).2.1⟩
  · obtain rfl : ofChar 'e' = c := by simpa [exponentText, Exponent.text] using hc
    decide
  · obtain rfl : ofChar 'E' = c := by simpa [exponentText, Exponent.text] using hc
    decide

theorem scanFractionText {m : Numeral} (hm : m.Valid) {t : Text}
    (ht : ∀ c ∈ t.head?, isDigit c = false ∧ c ≠ ofChar '.') :
    scanFraction (fractionText m.fraction ++ t) = (m.fraction, t) := by
  rcases hf : m.fraction with _ | f
  · exact scanFraction_none fun c hc => (ht c hc).2
  · exact scanFraction_text (hm.fraction f hf) fun c hc => (ht c hc).1

theorem scanExponentText {m : Numeral} (hm : m.Valid) {t : Text} (ht : EndsNumber t) :
    scanExponent (exponentText m.exponent ++ t) = (m.exponent, t) := by
  rcases he : m.exponent with _ | e
  · exact scanExponent_none fun c hc => (ht c hc).2.2
  · exact scanExponent_text (hm.exponent e he) fun c hc => (ht c hc).1

theorem head_fractionText {m : Numeral} {t : Text} (ht : EndsNumber t) :
    ∀ c ∈ (fractionText m.fraction ++ (exponentText m.exponent ++ t)).head?, isDigit c = false := by
  intro c hc
  rcases hf : m.fraction with _ | f
  · rw [hf] at hc
    exact (head_exponentText ht c hc).1
  · rw [hf] at hc
    obtain rfl : ofChar '.' = c := by simpa [fractionText] using hc
    decide

theorem Numeral.Valid.head_whole {m : Numeral} (hm : m.Valid) :
    ∃ c ds, m.whole = c :: ds ∧ isDigit c = true := by
  obtain ⟨hne, hds⟩ := hm.whole
  obtain ⟨c, ds, hw⟩ := List.exists_cons_of_ne_nil hne
  exact ⟨c, ds, hw, hds c (by simp [hw])⟩

/-- A number scans back to its numeral in front of text that cannot continue it. -/
theorem scanNumeral_text {m : Numeral} (hm : m.Valid) {t : Text} (ht : EndsNumber t) :
    scanNumeral (m.text ++ t) = some (m, t) := by
  have hsign : scanSign (m.text ++ t) =
      (m.negative, m.whole ++ (fractionText m.fraction ++ (exponentText m.exponent ++ t))) := by
    rcases hn : m.negative with _ | _
    · obtain ⟨c, ds, hw, hc⟩ := hm.head_whole
      have hm' : c ≠ ofChar '-' := by rintro rfl; revert hc; decide
      simp [Numeral.text, hn, hw, scanSign, hm']
    · simp [Numeral.text, hn, scanSign]
  simp only [scanNumeral, hsign, scanWhole_text hm (head_fractionText ht),
    scanFractionText hm (head_exponentText ht), scanExponentText hm ht]

/-- The numeral `str` prints for an integer. -/
def intNumeral (n : ℤ) : Numeral := ⟨decide (n < 0), natText n.natAbs, none, none⟩

theorem intText_eq (n : ℤ) : intText n = (intNumeral n).text := by
  rcases n with n | n
  · have h : ¬ (Int.ofNat n < 0) := by simp
    simp [intText, intNumeral, Numeral.text, fractionText, exponentText]
  · simp [intText, intNumeral, Numeral.text, fractionText, exponentText, Int.negSucc_lt_zero]

theorem intNumeral_valid (n : ℤ) : (intNumeral n).Valid where
  whole := ⟨natText_ne_nil _, isDigit_natText⟩
  leading := by
    intro hl h0
    change (natText n.natAbs).length ≠ 1 at hl
    change (natText n.natAbs).head? = _ at h0
    by_cases hn : n.natAbs = 0
    · rw [hn] at hl
      exact hl (by decide)
    · obtain ⟨c, ds, hc, hne⟩ := head_natText hn
      rw [hc] at h0
      obtain rfl : c = ofChar '0' := by simpa using h0
      exact hne (by decide)
  fraction := by simp [intNumeral]
  exponent := by simp [intNumeral]

theorem numeralValue_intNumeral [PyFloat F] {n : ℤ}
    (hn : (natText n.natAbs).length ≤ intMaxStrDigits) :
    numeralValue (F := F) (intNumeral n) = .ok (.int n) := by
  have hf : (intNumeral n).isFloat = false := rfl
  have hv : (if (intNumeral n).negative then -(ofDigits (intNumeral n).whole : ℤ)
      else ofDigits (intNumeral n).whole) = n := by
    simp only [intNumeral, ofDigits_natText, decide_eq_true_eq]
    split_ifs <;> omega
  have hw : (intNumeral n).whole.length ≤ intMaxStrDigits := hn
  rw [numeralValue, hf, if_neg (by simp), if_pos hw, hv]

/-! ### Values -/

namespace Json

/-- What a value must satisfy at each node to be read back. -/
def roundTripNode (st : Style) : Json F → Bool
  | .int n => (natText n.natAbs).length ≤ intMaxStrDigits
  | .str s => !st.ensureAscii || decide (Joined s)
  | .obj fs => decide (fs.map Prod.fst).Nodup &&
      (!st.ensureAscii || (fs.map Prod.fst).all fun k => decide (Joined k))
  | _ => true

mutual
/-- Scanner calls that reading a value's text takes. -/
def fuel : Json F → ℕ
  | .arr xs => 3 + fuelItems xs
  | .obj fs => 3 + fuelFields fs
  | .null => 1
  | .bool _ => 1
  | .int _ => 1
  | .float _ => 1
  | .str _ => 1
termination_by structural v => v

def fuelItems : List (Json F) → ℕ
  | [] => 0
  | x :: rest => 1 + x.fuel + fuelItems rest
termination_by structural v => v

def fuelFields : List (Text × Json F) → ℕ
  | [] => 0
  | f :: rest => 1 + fuelField f + fuelFields rest
termination_by structural v => v

def fuelField : Text × Json F → ℕ
  | (_, v) => v.fuel
termination_by structural v => v
end

variable [PyFloat F] {st : Style}

/-- The first code point of a rendered value. -/
structure Starts (c : CodePoint) : Prop where
  space : isJsonSpace c = false
  bracket : c ≠ ofChar ']'
  mark : c ≠ 0xFEFF

theorem starts_of_digit {c : CodePoint} (hc : isDigit c = true) : Starts c := by
  have h := isDigit_iff.mp hc
  refine ⟨?_, ?_, ?_⟩
  · rw [Bool.eq_false_iff]
    intro hs
    simp only [isJsonSpace, Bool.or_eq_true, beq_iff_eq] at hs
    omega
  · rintro rfl
    revert hc
    decide
  · rintro rfl
    revert hc
    decide

theorem starts_text {m : Numeral} (hm : m.Valid) : ∃ c t, m.text = c :: t ∧ Starts c := by
  rcases hn : m.negative with _ | _
  · obtain ⟨c, ds, hw, hc⟩ := hm.head_whole
    exact ⟨c, _, by simp only [Numeral.text, hn, hw]; rfl, starts_of_digit hc⟩
  · exact ⟨ofChar '-', _, by simp only [Numeral.text, hn]; rfl, by constructor <;> decide⟩

theorem starts_render (st : Style) (v : Json F) : ∃ c t, v.render st = c :: t ∧ Starts c := by
  cases v with
  | null => exact ⟨ofChar 'n', _, rfl, by constructor <;> decide⟩
  | bool b => cases b
              · exact ⟨ofChar 'f', _, rfl, by constructor <;> decide⟩
              · exact ⟨ofChar 't', _, rfl, by constructor <;> decide⟩
  | int n => rw [render, intText_eq]; exact starts_text (intNumeral_valid n)
  | float x =>
    rcases x with x | _ | _ | _
    · exact starts_text (PyFloat.repr_valid x)
    · exact ⟨ofChar 'N', _, rfl, by constructor <;> decide⟩
    · exact ⟨ofChar 'I', _, rfl, by constructor <;> decide⟩
    · exact ⟨ofChar '-', _, rfl, by constructor <;> decide⟩
  | str s => exact ⟨ofChar '"', _, rfl, by constructor <;> decide⟩
  | arr xs => exact ⟨ofChar '[', _, rfl, by constructor <;> decide⟩
  | obj fs => exact ⟨ofChar '{', _, rfl, by constructor <;> decide⟩

theorem skipWs_of_head {c : CodePoint} {t : Text} (h : isJsonSpace c = false) :
    skipWs (c :: t) = c :: t := by simp [skipWs, h]

theorem skipWs_render (st : Style) (v : Json F) (t : Text) : skipWs (v.render st ++ t) = v.render st ++ t := by
  obtain ⟨c, u, hv, hc⟩ := starts_render st v
  rw [hv, List.cons_append, skipWs_of_head hc.space]

theorem endsNumber_cons {c : CodePoint} {t : Text} (h₁ : isDigit c = false)
    (h₂ : c ≠ ofChar '.' ∧ c ≠ ofChar 'e' ∧ c ≠ ofChar 'E') : EndsNumber (c :: t) := by
  intro d hd
  obtain rfl : c = d := by simpa using hd
  exact ⟨h₁, h₂⟩

theorem endsNumber_nil : EndsNumber [] := by simp [EndsNumber]

theorem endsNumber_itemSep (t : Text) : EndsNumber (st.itemSep ++ t) := by
  rcases st with ⟨_, _ | _⟩
  · exact endsNumber_cons (c := ofChar ',') (by decide) (by decide)
  · exact endsNumber_cons (c := ofChar ',') (by decide) (by decide)

omit [PyFloat F] in
theorem itemSep_length (st : Style) : 1 ≤ st.itemSep.length := by
  rcases st with ⟨_, _ | _⟩ <;> simp [Style.itemSep, lit]

/-- A separator reads as its comma, and the white space after it is skipped. -/
theorem skipWs_itemSep (st : Style) (t : Text) :
    ∃ u, skipWs (st.itemSep ++ t) = ofChar ',' :: u ∧ skipWs u = skipWs t := by
  rcases st with ⟨_, _ | _⟩
  · exact ⟨t, rfl, rfl⟩
  · exact ⟨ofChar ' ' :: t, rfl, rfl⟩

theorem skipWs_keySep (st : Style) (t : Text) :
    ∃ u, skipWs (st.keySep ++ t) = ofChar ':' :: u ∧ skipWs u = skipWs t := by
  rcases st with ⟨_, _ | _⟩
  · exact ⟨t, rfl, rfl⟩
  · exact ⟨ofChar ' ' :: t, rfl, rfl⟩

/-! ### Leaves -/

theorem afterPrefix_ne {c d : CodePoint} {p t : Text} (h : c ≠ d) :
    afterPrefix (c :: p) (d :: t) = none := by rw [afterPrefix, if_neg h]

omit [PyFloat F] in
/-- No number reads as a constant. -/
theorem scanConstant_text {m : Numeral} (hm : m.Valid) (t : Text) :
    scanConstant (F := F) constants (m.text ++ t) = none := by
  have hne {c : CodePoint} (hc : isDigit c = true) {x : CodePoint} (hx : isDigit x = false) :
      x ≠ c := by rintro rfl; rw [hc] at hx; exact absurd hx (by simp)
  obtain ⟨c, ds, hw, hc⟩ := hm.head_whole
  have hI : ofChar 'I' ≠ c := hne hc (by decide)
  rcases hn : m.negative with _ | _
  · have ht : m.text ++ t =
        c :: (ds ++ (fractionText m.fraction ++ exponentText m.exponent) ++ t) := by
      simp [Numeral.text, hn, hw]
    have hk (name : Text) {a : CodePoint} {p : Text} (hp : name = a :: p)
        (ha : isDigit a = false) (u : Text) : afterPrefix name (c :: u) = none := by
      rw [hp, afterPrefix_ne (hne hc ha)]
    rw [ht]
    simp only [constants, scanConstant, hk (lit "null") rfl (by decide),
      hk (lit "true") rfl (by decide), hk (lit "false") rfl (by decide),
      hk (lit "NaN") rfl (by decide), hk (lit "Infinity") rfl (by decide),
      hk (lit "-Infinity") rfl (by decide)]
  · have ht : m.text ++ t =
        ofChar '-' :: c :: (ds ++ (fractionText m.fraction ++ exponentText m.exponent) ++ t) := by
      simp [Numeral.text, hn, hw]
    rw [ht]
    have hm1 : afterPrefix (lit "-Infinity") (ofChar '-' :: c ::
        (ds ++ (fractionText m.fraction ++ exponentText m.exponent) ++ t)) = none := by
      change afterPrefix (ofChar '-' :: ofChar 'I' :: lit "nfinity") _ = none
      rw [afterPrefix, if_pos rfl, afterPrefix_ne hI]
    simp only [constants, scanConstant, hm1]
    rfl

theorem scanValue_text {m : Numeral} (hm : m.Valid) {n : ℕ} {t : Text} (ht : EndsNumber t) :
    scanValue (F := F) (n + 1) (m.text ++ t) = (numeralValue m).map fun v => (v, t) := by
  have hc := scanConstant_text (F := F) hm t
  have hs := scanNumeral_text hm ht
  obtain ⟨c, u, hu, -⟩ := starts_text hm
  have hd : c ≠ ofChar '{' ∧ c ≠ ofChar '[' ∧ c.val ≠ 0x22 := by
    rcases hn : m.negative with _ | _
    · obtain ⟨d, ds, hw, hd⟩ := hm.head_whole
      obtain rfl : d = c := by
        simp only [Numeral.text, hn, hw] at hu
        exact (List.cons.inj hu).1
      refine ⟨?_, ?_, ?_⟩
      · rintro rfl; revert hd; decide
      · rintro rfl; revert hd; decide
      · have := isDigit_iff.mp hd; omega
    · obtain rfl : ofChar '-' = c := by
        simp only [Numeral.text, hn] at hu
        exact (List.cons.inj hu).1
      decide
  rw [hu, List.cons_append] at hc hs ⊢
  rw [scanValue, if_neg hd.2.2, if_neg hd.1, if_neg hd.2.1, hc]
  simp only [hs]

omit [PyFloat F] in
/-- Adding a key that is not there. -/
theorem setField_new {key : Text} {v : Json F} {fs : List (Text × Json F)}
    (h : key ∉ fs.map Prod.fst) : setField key v fs = fs ++ [(key, v)] := by
  induction fs with
  | nil => rfl
  | cons f fs ih =>
    simp only [List.map_cons, List.mem_cons, not_or] at h
    rw [setField, if_neg (Ne.symm h.1), ih h.2]
    rfl

/-! ### Containers -/

theorem scanString_key {k : Text} (hk : st.ensureAscii = true → Joined k) (t : Text) :
    scanString ((k.flatMap (escapeChar st.ensureAscii) ++ [ofChar '"']) ++ t) = .ok (k, t) := by
  rw [List.append_assoc]
  exact scanString_quote hk t

theorem scanValue_str {s : Text} (hs : st.ensureAscii = true → Joined s) {n : ℕ} (t : Text) :
    scanValue (F := F) (n + 1) (quote st s ++ t) = .ok (.str s, t) := by
  rw [quote, List.cons_append, scanValue, if_pos (by decide), scanString_key hs]
  rfl

/-- The rest of an object, once its first key has been scanned. -/
theorem scanFields_cons {n : ℕ} {fs : List (Text × Json F)} {k : Text} {v : Json F} {t u : Text}
    (hk : st.ensureAscii = true → Joined k) (hnew : k ∉ fs.map Prod.fst)
    (hv : scanValue n (v.render st ++ t) = .ok (v, u)) :
    scanFields (n + 1) fs (renderField st (k, v) ++ t) =
      match skipWs u with
      | [] => .error .jsonDecodeError
      | c :: t =>
        if c = ofChar '}' then .ok (.obj (fs ++ [(k, v)]), t)
        else if c = ofChar ',' then scanFields n (fs ++ [(k, v)]) (skipWs t)
        else .error .jsonDecodeError := by
  obtain ⟨w, hw, hskip⟩ := skipWs_keySep st (v.render st ++ t)
  have ht : renderField st (k, v) ++ t =
      ofChar '"' :: ((k.flatMap (escapeChar st.ensureAscii) ++ [ofChar '"']) ++
        (st.keySep ++ (v.render st ++ t))) := by
    simp [renderField, quote]
  rw [ht, scanFields, if_neg (by decide), scanString_key hk]
  change (match skipWs (st.keySep ++ (v.render st ++ t)) with
    | [] => _
    | c :: t => _) = _
  rw [hw]
  simp only [ne_eq, not_true_eq_false, ↓reduceIte]
  rw [hskip, skipWs_render, hv, ← setField_new hnew]
  rfl

mutual
theorem scanValue_render : ∀ (v : Json F), v.all (roundTripNode st) = true → ∀ (n : ℕ) (t : Text),
    v.fuel ≤ n → EndsNumber t → scanValue n (v.render st ++ t) = .ok (v, t)
  | .null, _, n + 1, t, _, _ => rfl
  | .bool true, _, n + 1, t, _, _ => rfl
  | .bool false, _, n + 1, t, _, _ => rfl
  | .int i, hv, n + 1, t, _, ht => by
    rw [render, intText_eq, scanValue_text (intNumeral_valid i) ht,
      numeralValue_intNumeral (by simpa [all, roundTripNode] using hv)]
    rfl
  | .float (.finite x), _, n + 1, t, _, ht => by
    change scanValue (n + 1) ((PyFloat.repr x).text ++ t) = _
    rw [scanValue_text (PyFloat.repr_valid x) ht, numeralValue, if_pos (PyFloat.repr_isFloat x),
      PyFloat.ofNumeral_repr]
    rfl
  | .float .nan, _, n + 1, t, _, _ => rfl
  | .float (.infinity true), _, n + 1, t, _, _ => rfl
  | .float (.infinity false), _, n + 1, t, _, _ => rfl
  | .str s, hv, n + 1, t, _, _ =>
    scanValue_str (fun ha => by simpa [all, roundTripNode, ha] using hv) t
  | .arr (x :: xs), _, 0, _, hn, _ | .arr (x :: xs), _, 1, _, hn, _
  | .arr (x :: xs), _, 2, _, hn, _ => by simp only [fuel] at hn; omega
  | .obj (f :: fs), _, 0, _, hn, _ | .obj (f :: fs), _, 1, _, hn, _
  | .obj (f :: fs), _, 2, _, hn, _ => by simp only [fuel] at hn; omega
  | .arr [], _, n + 3, t, _, _ => rfl
  | .arr (x :: xs), hv, n + 3, t, hn, _ => by
    obtain ⟨c, u, hx, hc⟩ := starts_render st x
    have h := scanItems_render (x :: xs) (List.cons_ne_nil _ _)
      (by simpa [all, roundTripNode] using hv) (n + 1) [] t
      (by simp only [fuel] at hn; omega)
    have hr : renderItems st (x :: xs) ++ ofChar ']' :: t =
        c :: (u ++ ((if xs.isEmpty then [] else st.itemSep) ++ renderItems st xs) ++
          ofChar ']' :: t) := by
      simp [renderItems, hx]
    rw [render, List.cons_append, List.append_assoc, List.singleton_append]
    rw [scanValue, if_neg (by decide), if_neg (by decide), if_pos rfl, hr,
      skipWs_of_head hc.space, scanArray, if_neg hc.bracket, ← hr, h]
    rfl
  | .obj [], _, n + 3, t, _, _ => rfl
  | .obj (f :: fs), hv, n + 3, t, hn, _ => by
    simp only [all, Bool.and_eq_true, roundTripNode, decide_eq_true_eq, Bool.or_eq_true,
      Bool.not_eq_true', List.all_eq_true] at hv
    have h := scanFields_render (f :: fs) (List.cons_ne_nil _ _) hv.2
      (fun ha k hk => by
        rcases hv.1.2 with h | h
        · rw [ha] at h; exact absurd h (by simp)
        · exact h k hk)
      (n + 1) [] t (by simpa using hv.1.1) (by simp only [fuel] at hn; omega)
    have hr : ∃ u, renderFields st (f :: fs) ++ ofChar '}' :: t = ofChar '"' :: u := by
      rcases f with ⟨k, v⟩
      exact ⟨_, by simp only [renderFields, renderField, quote, List.cons_append]; rfl⟩
    obtain ⟨u, hu⟩ := hr
    rw [render, List.cons_append, List.append_assoc, List.singleton_append]
    rw [scanValue, if_neg (by decide), if_pos rfl, hu, skipWs_of_head (by decide), scanObject,
      if_neg (by decide), ← hu, h]
    rfl

theorem scanItems_render : ∀ (xs : List (Json F)), xs ≠ [] → allItems (roundTripNode st) xs = true →
    ∀ (n : ℕ) (acc : List (Json F)) (t : Text), fuelItems xs ≤ n →
      scanItems n acc (renderItems st xs ++ ofChar ']' :: t) = .ok (.arr (acc ++ xs), t)
  | x :: xs, _, _, 0, _, _, hn => by simp only [fuelItems] at hn; omega
  | [x], _, hxs, n + 1, acc, t, hn => by
    simp only [allItems, Bool.and_true] at hxs
    have hx := scanValue_render x hxs n (ofChar ']' :: t) (by simp only [fuelItems] at hn; omega)
      (endsNumber_cons (by decide) (by decide))
    rw [scanItems]
    simp only [renderItems, List.isEmpty_nil, ↓reduceIte, List.append_nil]
    rw [hx]
    rfl
  | x :: y :: xs, _, hxs, n + 1, acc, t, hn => by
    simp only [allItems, Bool.and_eq_true] at hxs
    have hx := scanValue_render x hxs.1 n
      (st.itemSep ++ (renderItems st (y :: xs) ++ ofChar ']' :: t))
      (by simp only [fuelItems] at hn; omega) (endsNumber_itemSep _)
    have ih := scanItems_render (y :: xs) (List.cons_ne_nil _ _)
      (by simpa [allItems] using hxs.2) n (acc ++ [x]) t
      (by simp only [fuelItems] at hn ⊢; omega)
    obtain ⟨u, hu, hskip⟩ := skipWs_itemSep st (renderItems st (y :: xs) ++ ofChar ']' :: t)
    have hy : skipWs (renderItems st (y :: xs) ++ ofChar ']' :: t) =
        renderItems st (y :: xs) ++ ofChar ']' :: t := by
      simp only [renderItems, List.append_assoc]
      exact skipWs_render st y _
    have hr : renderItems st (x :: y :: xs) ++ ofChar ']' :: t =
        x.render st ++ (st.itemSep ++ (renderItems st (y :: xs) ++ ofChar ']' :: t)) := by
      rw [renderItems]
      simp
    rw [hr, scanItems, hx]
    change (match skipWs (st.itemSep ++ (renderItems st (y :: xs) ++ ofChar ']' :: t)) with
      | [] => _
      | c :: t => _) = _
    rw [hu]
    simp only [if_neg (show ofChar ',' ≠ ofChar ']' by decide), ↓reduceIte]
    rw [hskip, hy, ih]
    simp

theorem scanFields_render : ∀ (fs : List (Text × Json F)), fs ≠ [] →
    allFields (roundTripNode st) fs = true →
    (st.ensureAscii = true → ∀ k ∈ fs.map Prod.fst, Joined k) →
    ∀ (n : ℕ) (acc : List (Text × Json F)) (t : Text), ((acc ++ fs).map Prod.fst).Nodup →
      fuelFields fs ≤ n →
      scanFields n acc (renderFields st fs ++ ofChar '}' :: t) = .ok (.obj (acc ++ fs), t)
  | f :: fs, _, _, _, 0, _, _, _, hn => by simp only [fuelFields] at hn; omega
  | [(k, v)], _, hfs, hk, n + 1, acc, t, hnd, hn => by
    simp only [allFields, allField, Bool.and_true] at hfs
    have hv := scanValue_render v hfs n (ofChar '}' :: t)
      (by simp only [fuelFields, fuelField] at hn; omega)
      (endsNumber_cons (by decide) (by decide))
    have hnew : k ∉ acc.map Prod.fst := by
      intro hmem
      rw [List.map_append, List.nodup_append] at hnd
      exact hnd.2.2 k hmem k (by simp) rfl
    simp only [renderFields, List.isEmpty_nil, ↓reduceIte, List.append_nil]
    rw [scanFields_cons (fun ha => hk ha k (by simp)) hnew hv]
    rfl
  | (k, v) :: g :: fs, _, hfs, hk, n + 1, acc, t, hnd, hn => by
    simp only [allFields, allField, Bool.and_eq_true] at hfs
    have hv := scanValue_render v hfs.1 n
      (st.itemSep ++ (renderFields st (g :: fs) ++ ofChar '}' :: t))
      (by simp only [fuelFields, fuelField] at hn; omega) (endsNumber_itemSep _)
    have hnew : k ∉ acc.map Prod.fst := by
      intro hmem
      rw [List.map_append, List.nodup_append] at hnd
      exact hnd.2.2 k hmem k (by simp) rfl
    have ih := scanFields_render (g :: fs) (List.cons_ne_nil _ _)
      (by simpa [allFields] using hfs.2)
      (fun ha key hkey => hk ha key (by
        simp only [List.map_cons, List.mem_cons] at hkey ⊢
        exact .inr hkey)) n (acc ++ [(k, v)]) t
      (by simpa using hnd) (by simp only [fuelFields] at hn ⊢; omega)
    obtain ⟨u, hu, hskip⟩ :=
      skipWs_itemSep st (renderFields st (g :: fs) ++ ofChar '}' :: t)
    have hg : skipWs (renderFields st (g :: fs) ++ ofChar '}' :: t) =
        renderFields st (g :: fs) ++ ofChar '}' :: t := by
      rcases g with ⟨k', v'⟩
      simp only [renderFields, renderField, quote, List.cons_append]
      exact skipWs_of_head (by decide)
    have hr : renderFields st ((k, v) :: g :: fs) ++ ofChar '}' :: t =
        renderField st (k, v) ++ (st.itemSep ++ (renderFields st (g :: fs) ++ ofChar '}' :: t)) := by
      rw [renderFields]
      simp
    rw [hr, scanFields_cons (fun ha => hk ha k (by simp)) hnew hv, hu]
    simp only [if_neg (show ofChar ',' ≠ ofChar '}' by decide), ↓reduceIte]
    rw [hskip, hg, ih]
    simp
end

mutual
theorem fuel_le_render (st : Style) : ∀ v : Json F, v.fuel ≤ 3 * (v.render st).length
  | .null | .bool true | .bool false | .float .nan | .float (.infinity true)
  | .float (.infinity false) => by simp [fuel, render, renderNum, lit]
  | .int n => by
    obtain ⟨c, t, h, -⟩ := starts_render st (Json.int n : Json F)
    simp only [fuel, h, List.length_cons]
    omega
  | .float (.finite x) => by
    obtain ⟨c, t, h, -⟩ := starts_render st (Json.float (.finite x))
    simp only [fuel, h, List.length_cons]
    omega
  | .str s => by
    simp only [fuel, render, quote, List.length_cons]
    omega
  | .arr xs => by
    have := fuelItems_le_render st xs
    simp only [fuel, render, List.length_cons, List.length_append, List.length_nil]
    omega
  | .obj fs => by
    have := fuelFields_le_render st fs
    simp only [fuel, render, List.length_cons, List.length_append, List.length_nil]
    omega

theorem fuelItems_le_render (st : Style) :
    ∀ xs : List (Json F), fuelItems xs ≤ 3 * (renderItems st xs).length + 1
  | [] => by simp [fuelItems]
  | [x] => by
    have := fuel_le_render st x
    simp only [fuelItems, renderItems, List.isEmpty_nil, ↓reduceIte, List.append_nil]
    omega
  | x :: y :: xs => by
    have h := fuel_le_render st x
    have ih := fuelItems_le_render st (y :: xs)
    have hs := itemSep_length st
    rw [fuelItems, renderItems, if_neg (by simp)]
    simp only [List.length_append]
    omega

theorem fuelFields_le_render (st : Style) :
    ∀ fs : List (Text × Json F), fuelFields fs ≤ 3 * (renderFields st fs).length + 1
  | [] => by simp [fuelFields]
  | [(k, v)] => by
    have := fuel_le_render st v
    simp only [fuelFields, fuelField, renderFields, renderField, List.isEmpty_nil, ↓reduceIte,
      List.append_nil, List.length_append]
    omega
  | (k, v) :: g :: fs => by
    have h := fuel_le_render st v
    have ih := fuelFields_le_render st (g :: fs)
    have hs := itemSep_length st
    rw [fuelFields, renderFields, if_neg (by simp)]
    simp only [fuelField, renderField, List.length_append]
    omega
end

/-- Reading back the text of a value. -/
theorem loads_render {v : Json F} (hv : v.all (roundTripNode st) = true) :
    loads (v.render st) = .ok v := by
  obtain ⟨c, t, h, hc⟩ := starts_render st v
  have hw := skipWs_render st v []
  have hs := scanValue_render v hv (3 * (v.render st).length + 3) []
    (by have := fuel_le_render st v; omega) endsNumber_nil
  simp only [List.append_nil] at hw hs
  have hm : (v.render st).head? ≠ some 0xFEFF := by
    rw [h]
    simpa using hc.mark
  rw [loads, if_neg hm, hw, hs]
  rfl

/-! ### Sorted keys -/

omit [PyFloat F] in
theorem sortStable_roundTripNode : SortStable (roundTripNode (F := F) st) where
  arr _ := rfl
  obj fs := by
    have h := keys_sortKeys fs
    simp only [roundTripNode, h.nodup_iff, h.all_eq]

/-- Every string is joined, every key too. -/
def joinedNode : Json F → Bool
  | .str s => decide (Joined s)
  | .obj fs => (fs.map Prod.fst).all fun k => decide (Joined k)
  | _ => true

/-- No string of the value splits a pair of surrogates; `json.loads` returns only such values. -/
def Whole (v : Json F) : Prop := v.all joinedNode = true

instance (v : Json F) : Decidable (Whole v) := inferInstanceAs (Decidable (_ = true))

omit [PyFloat F] in
theorem whole_of_scalars {v : Json F} (hv : Scalars v) : Whole v := by
  have hjoined {t : Text} (h : (t.all fun c => !isSurrogate c) = true) :
      decide (Joined t) = true := by
    refine decide_eq_true (joined_of_scalar fun c hc => ?_)
    simpa using List.all_eq_true.mp h c hc
  refine all_imp (fun n hn => ?_) hv
  cases n with
  | str s => exact hjoined hn
  | obj fs =>
    simp only [joinedNode, List.all_map, List.all_eq_true]
    exact fun f hf => hjoined (List.all_eq_true.mp hn f hf)
  | null | bool | int | float | arr => rfl

omit [PyFloat F] in
/-- A `dict` whose integers print is read back; an ASCII text also asks for joined strings. -/
theorem all_roundTripNode {v : Json F} : v.all (roundTripNode st) = true ↔
    Printable v ∧ Distinct v ∧ (st.ensureAscii = true → Whole v) := by
  cases hst : st.ensureAscii with
  | false =>
    have hnode : roundTripNode (F := F) st = fun n => printableNode n && distinctNode n := by
      funext n
      cases n <;> simp [roundTripNode, printableNode, distinctNode, hst]
    rw [hnode, all_and, Bool.and_eq_true]
    simp [Printable, Distinct]
  | true =>
    have hnode : roundTripNode (F := F) st =
        fun n => printableNode n && (distinctNode n && joinedNode n) := by
      funext n
      cases n <;> simp [roundTripNode, printableNode, distinctNode, joinedNode, hst]
    rw [hnode, all_and, all_and, Bool.and_eq_true, Bool.and_eq_true]
    simp [Printable, Distinct, Whole]

theorem dumps_sortKeys (v : Json F) : dumps st v.sortKeys = dumps st v := by
  simp only [dumps, printable_sortKeys, sortKeys_sortKeys]

/-- `json.loads(json.dumps(value, sort_keys=True))` is the value with its keys sorted. -/
theorem loads_dumps {v : Json F} (hv : v.all (roundTripNode st) = true) {t : Text}
    (ht : dumps st v = .ok t) : loads t = .ok v.sortKeys := by
  rw [dumps] at ht
  split_ifs at ht
  obtain rfl := Except.ok.inj ht
  exact loads_render (by rw [sortStable_roundTripNode.all_sortKeys, hv])

end Json

end SentinelGRC.Python
