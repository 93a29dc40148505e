import SentinelGRC.Python.Text

/-! Decimal integers in Python text: the digits `str` prints, the value they
are read back as, and the `int` constructor on a string with its signs,
underscores, surrounding white space and non-ASCII decimal digits. Conversions
in either direction refuse more than `intMaxStrDigits` digits. -/

namespace SentinelGRC.Python

/-- The interpreter's default limit on digits in integer conversions. -/
def intMaxStrDigits : ℕ := 4300

def isDigit (c : CodePoint) : Bool := 0x30 ≤ c.val && c.val ≤ 0x39

theorem isDigit_iff {c : CodePoint} : isDigit c = true ↔ 0x30 ≤ c.val ∧ c.val ≤ 0x39 := by
  simp only [isDigit, Bool.and_eq_true, decide_eq_true_eq]

/-! ### Printing -/

def natText (n : ℕ) : Text := (Nat.toDigits 10 n).map ofChar

def intText : ℤ → Text
  | .ofNat n => natText n
  | .negSucc n => ofChar '-' :: natText (n + 1)

theorem natText_ne_nil (n : ℕ) : natText n ≠ [] := by simp [natText, Nat.toDigits_ne_nil]

theorem isDigit_natText {n : ℕ} : ∀ c ∈ natText n, isDigit c = true := by
  intro c hc
  obtain ⟨d, hd, rfl⟩ := List.mem_map.mp hc
  have h := Nat.isDigit_of_mem_toDigits (by decide) (by decide) hd
  simp only [Char.isDigit, Bool.and_eq_true, decide_eq_true_eq] at h
  rw [isDigit_iff, val_ofChar]
  exact ⟨h.1, h.2⟩

/-- No leading zero, so the printed digits form one JSON integer literal. -/
theorem head_natText {n : ℕ} (hn : n ≠ 0) : ∃ c t, natText n = c :: t ∧ c.val ≠ 0x30 := by
  induction n using Nat.strong_induction_on with
  | h n ih =>
    by_cases hlt : n < 10
    · refine ⟨ofChar n.digitChar, [], by simp [natText, Nat.toDigits_of_lt_base hlt], ?_⟩
      have hd : ∀ d < 10, d ≠ 0 → (Nat.digitChar d).toNat ≠ 0x30 := by decide
      exact hd n hlt hn
    · obtain ⟨c, t, ht, hc⟩ := ih (n / 10) (by omega) (by omega)
      refine ⟨c, t ++ [ofChar (n % 10).digitChar], ?_, hc⟩
      rw [natText, Nat.toDigits_of_base_le (by decide) (by omega), List.map_append]
      change natText (n / 10) ++ _ = _
      rw [ht]
      rfl

theorem length_natText_le {n w : ℕ} (hw : 0 < w) (hn : n < 10 ^ w) : (natText n).length ≤ w := by
  rw [natText, List.length_map]
  exact (Nat.length_toDigits_le_iff (by decide) hw).mpr hn

/-! ### Reading digits back -/

def ofDigits (t : Text) : ℕ := t.foldl (fun n c => 10 * n + (c.val - 0x30)) 0

@[simp] theorem ofDigits_natText (n : ℕ) : ofDigits (natText n) = n := by
  have h := Nat.ofDigitChars_ten_toDigits (n := n)
  rw [Nat.ofDigitChars_eq_foldl] at h
  rw [ofDigits, natText, List.foldl_map]
  exact h

/-! ### The `int` constructor -/

/-- The zeros of the Unicode decimal digit blocks. -/
def decimalZeros : List ℕ :=
  [0x30, 0x660, 0x6F0, 0x7C0, 0x966, 0x9E6, 0xA66, 0xAE6, 0xB66, 0xBE6, 0xC66, 0xCE6, 0xD66, 0xDE6,
   0xE50, 0xED0, 0xF20, 0x1040, 0x1090, 0x17E0, 0x1810, 0x1946, 0x19D0, 0x1A80, 0x1A90, 0x1B50,
   0x1BB0, 0x1C40, 0x1C50, 0xA620, 0xA8D0, 0xA900, 0xA9D0, 0xA9F0, 0xAA50, 0xABF0, 0xFF10, 0x104A0,
   0x10D30, 0x11066, 0x110F0, 0x11136, 0x111D0, 0x112F0, 0x11450, 0x114D0, 0x11650, 0x116C0,
   0x11730, 0x118E0, 0x11950, 0x11C50, 0x11D50, 0x11DA0, 0x16A60, 0x16AC0, 0x16B50, 0x1D7CE,
   0x1D7D8, 0x1D7E2, 0x1D7EC, 0x1D7F6, 0x1E140, 0x1E2F0, 0x1E950, 0x1FBF0]

def decimalValue (c : CodePoint) : Option ℕ :=
  (decimalZeros.find? fun z => z ≤ c.val && c.val < z + 10).map (c.val - ·)

/-- The white space `int` ignores around its literal; the ASCII separators
`0x1C`-`0x1F` are not among it. -/
def isIntSpace (c : CodePoint) : Bool :=
  (0x9 ≤ c.val && c.val ≤ 0xD) || c.val == 0x20 || (127 ≤ c.val && isSpace c)

/-- Digits with single underscores between them. -/
def intDigits (afterDigit : Bool) : Text → Option (List ℕ)
  | [] => if afterDigit then some [] else none
  | c :: rest =>
    if c = ofChar '_' then (if afterDigit then intDigits false rest else none)
    else match decimalValue c with
      | some d => (intDigits true rest).map (d :: ·)
      | none => none

def natOfLiteral (t : Text) : Option ℕ :=
  (intDigits false t).bind fun ds =>
    if ds.length ≤ intMaxStrDigits then some (ds.foldl (fun n d => 10 * n + d) 0) else none

/-- `int(value)` on a string; `none` is its `ValueError`. -/
def pyInt (t : Text) : Option ℤ :=
  match (t.dropWhile isIntSpace).rdropWhile isIntSpace with
  | [] => none
  | c :: rest =>
    if c = ofChar '-' then (natOfLiteral rest).map fun n => -(n : ℤ)
    else if c = ofChar '+' then (natOfLiteral rest).map Int.ofNat
    else (natOfLiteral (c :: rest)).map Int.ofNat

example : pyInt (lit " +1_700\n") = some 1700 := by decide

theorem decimalValue_newline : decimalValue 0xA = none := by decide

theorem newline_not_mem_of_intDigits : ∀ {afterDigit : Bool} {t : Text} {ds : List ℕ},
    intDigits afterDigit t = some ds → (0xA : CodePoint) ∉ t
  | _, [], _, _ => by simp
  | afterDigit, c :: rest, ds, h => by
    rw [intDigits] at h
    split_ifs at h with hunder hafter
    · have hrest := newline_not_mem_of_intDigits h
      rw [hunder]
      exact List.not_mem_cons_of_ne_of_not_mem (by decide) hrest
    · cases hd : decimalValue c with
      | none =>
        rw [hd] at h
        cases h
      | some d =>
        rw [hd] at h
        obtain ⟨rest', hrest, -⟩ := Option.map_eq_some_iff.mp h
        refine List.not_mem_cons_of_ne_of_not_mem ?_ (newline_not_mem_of_intDigits hrest)
        rintro rfl
        rw [decimalValue_newline] at hd
        cases hd

theorem newline_not_mem_of_natOfLiteral {t : Text} {n : ℕ} (h : natOfLiteral t = some n) :
    (0xA : CodePoint) ∉ t := by
  obtain ⟨ds, hds, -⟩ := Option.bind_eq_some_iff.mp h
  exact newline_not_mem_of_intDigits hds

/-- What `int` accepts has no line break past its white space. -/
theorem newline_not_mem_of_pyInt {t : Text} {z : ℤ} (h : pyInt t = some z) :
    (0xA : CodePoint) ∉ (t.dropWhile isIntSpace).rdropWhile isIntSpace ∧
      (t.dropWhile isIntSpace).rdropWhile isIntSpace ≠ [] := by
  unfold pyInt at h
  cases hs : (t.dropWhile isIntSpace).rdropWhile isIntSpace with
  | nil =>
    rw [hs] at h
    cases h
  | cons c rest =>
    rw [hs] at h
    refine ⟨?_, List.cons_ne_nil _ _⟩
    simp only at h
    split_ifs at h with hminus hplus
    · rw [hminus]
      refine List.not_mem_cons_of_ne_of_not_mem (by decide) ?_
      cases hn : natOfLiteral rest with
      | none =>
        rw [hn] at h
        cases h
      | some n => exact newline_not_mem_of_natOfLiteral hn
    · obtain ⟨n, hn, -⟩ := Option.map_eq_some_iff.mp h
      rw [hplus]
      exact List.not_mem_cons_of_ne_of_not_mem (by decide) (newline_not_mem_of_natOfLiteral hn)
    · obtain ⟨n, hn, -⟩ := Option.map_eq_some_iff.mp h
      exact newline_not_mem_of_natOfLiteral hn

/-- A line break after a literal ends what `int` accepts. -/
theorem pyInt_append_newline {s t : Text} {c : CodePoint} {z : ℤ} (hs : pyInt s = some z)
    (hc : isIntSpace c = false) : pyInt (s ++ 0xA :: c :: t) = none := by
  rw [Option.eq_none_iff_forall_ne_some]
  intro z' hz'
  refine (newline_not_mem_of_pyInt hz').1 ?_
  have hne : s.dropWhile isIntSpace ≠ [] := by
    intro he
    refine (newline_not_mem_of_pyInt hs).2 ?_
    rw [he]
    rfl
  have hdrop : (s ++ 0xA :: c :: t).dropWhile isIntSpace =
      s.dropWhile isIntSpace ++ 0xA :: c :: t := by
    rw [List.dropWhile_append, if_neg]
    rwa [List.isEmpty_iff]
  have hprefix := prefix_rdropWhile (l := s.dropWhile isIntSpace ++ [0xA]) hc t
  rw [hdrop]
  have hmem : 0xA ∈ s.dropWhile isIntSpace ++ [0xA] ++ [c] := by simp
  exact List.IsPrefix.mem hmem (by simpa using hprefix)

end SentinelGRC.Python
