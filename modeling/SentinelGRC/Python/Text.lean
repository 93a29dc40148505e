import Mathlib.Algebra.GroupWithZero.Nat
import Mathlib.Data.Fin.Basic
import Mathlib.Data.List.DropRight
import Mathlib.Data.List.Infix
import Mathlib.Data.List.Lex
import Mathlib.Data.List.Sort

/-! Python text values. A `str` is a list of code points, lone surrogates
included, which is why it is not a list of `Char`. Modelled: literals, white
space and `strip`, `splitlines`, universal newlines, and the strict UTF-8 codec,
which refuses surrogates in both directions. -/

namespace SentinelGRC.Python

/-- The exceptions of the interpreter that the modelled code raises or catches. -/
inductive PyError
  | valueError (message : List (Fin 0x110000))
  | typeError (message : List (Fin 0x110000))
  | keyError (message : List (Fin 0x110000))
  | permissionError (message : List (Fin 0x110000))
  | indexError (message : List (Fin 0x110000))
  | runtimeError (message : List (Fin 0x110000))
  | overflowError
  | integrityError
  | operationalError
  | unicodeEncodeError
  | unicodeDecodeError
  | jsonDecodeError
  deriving DecidableEq

/-- A computation succeeds when its first step does, and the rest from there. -/
theorem bind_eq_ok {ε α β : Type} {x : Except ε α} {f : α → Except ε β} {b : β} :
    (x >>= f) = .ok b ↔ ∃ a, x = .ok a ∧ f a = .ok b := by
  constructor
  · intro h
    cases x with
    | error e => cases h
    | ok a => exact ⟨a, rfl, h⟩
  · rintro ⟨a, rfl, h⟩
    exact h

/-- A check that passes. -/
theorem ite_error_eq_ok {ε α : Type} {p : Prop} [Decidable p] {e : ε} {x : Except ε α} {a : α} :
    (if p then .error e else x) = .ok a ↔ ¬ p ∧ x = .ok a := by
  split_ifs with h <;> simp [h]

abbrev CodePoint := Fin 0x110000

abbrev Text := List CodePoint

instance neZero_codePoints : NeZero 0x110000 := ⟨by decide⟩

instance lawfulBEq_codePoint : LawfulBEq CodePoint := inferInstance

instance lawfulBEq_text : LawfulBEq Text := inferInstance

def ofChar (c : Char) : CodePoint :=
  ⟨c.toNat, by rcases c.valid with h | ⟨-, h⟩ <;> simp only [Char.toNat] <;> omega⟩

@[simp] theorem val_ofChar (c : Char) : (ofChar c).val = c.toNat := rfl

/-- A literal of the source. -/
def lit (s : String) : Text := s.toList.map ofChar

theorem lower_lt {c : CodePoint} (h : 0x41 ≤ c.val ∧ c.val ≤ 0x5A) : c.val + 0x20 < 0x110000 := by
  omega

def isSurrogate (c : CodePoint) : Bool := 0xD800 ≤ c.val && c.val ≤ 0xDFFF

theorem isSurrogate_eq_false {c : CodePoint} :
    isSurrogate c = false ↔ c.val < 0xD800 ∨ 0xDFFF < c.val := by
  simp only [isSurrogate, Bool.and_eq_false_imp, decide_eq_true_eq, decide_eq_false_iff_not]
  omega

/-- No lone surrogates: exactly the text that the UTF-8 codec accepts. -/
def Scalar (t : Text) : Prop := ∀ c ∈ t, isSurrogate c = false

instance (t : Text) : Decidable (Scalar t) :=
  decidable_of_iff (t.all fun c => !isSurrogate c) (by simp [Scalar])

theorem scalar_nil : Scalar [] := by simp [Scalar]

@[simp] theorem scalar_cons {c : CodePoint} {t : Text} :
    Scalar (c :: t) ↔ isSurrogate c = false ∧ Scalar t := by simp [Scalar]

@[simp] theorem scalar_append {s t : Text} : Scalar (s ++ t) ↔ Scalar s ∧ Scalar t := by
  simp [Scalar, or_imp, forall_and]

@[simp] theorem isSurrogate_ofChar (c : Char) : isSurrogate (ofChar c) = false := by
  have hv : c.toNat < 0xD800 ∨ 0xDFFF < c.toNat := by
    rcases c.valid with h | ⟨h, -⟩
    · exact .inl h
    · exact .inr h
  rw [isSurrogate_eq_false, val_ofChar]
  omega

theorem scalar_lit (s : String) : Scalar (lit s) := by
  intro c hc
  obtain ⟨d, -, rfl⟩ := List.mem_map.mp hc
  exact isSurrogate_ofChar d

/-! ### White space -/

/-- `str.isspace` on one code point. -/
def isSpace (c : CodePoint) : Bool :=
  (0x9 ≤ c.val && c.val ≤ 0xD) || (0x1C ≤ c.val && c.val ≤ 0x20) || c.val == 0x85 ||
    c.val == 0xA0 || c.val == 0x1680 || (0x2000 ≤ c.val && c.val ≤ 0x200A) || c.val == 0x2028 ||
    c.val == 0x2029 || c.val == 0x202F || c.val == 0x205F || c.val == 0x3000

def strip (t : Text) : Text := (t.dropWhile isSpace).rdropWhile isSpace

/-- `not value.strip()`. -/
def blank (t : Text) : Bool := (strip t).isEmpty

theorem strip_infixOf (t : Text) : strip t <:+: t :=
  (List.rdropWhile_prefix isSpace _).isInfix.trans (List.dropWhile_suffix _).isInfix

theorem length_strip_le (t : Text) : (strip t).length ≤ t.length := (strip_infixOf t).length_le

theorem strip_strip (t : Text) : strip (strip t) = strip t := by
  have hhead : (strip t).dropWhile isSpace = strip t := by
    rw [List.dropWhile_eq_self_iff]
    intro hpos
    have hpre : strip t <+: t.dropWhile isSpace := List.rdropWhile_prefix isSpace _
    have hlt : 0 < (t.dropWhile isSpace).length := hpos.trans_le hpre.length_le
    rw [hpre.getElem hpos]
    exact List.dropWhile_get_zero_not isSpace t hlt
  conv_lhs => rw [strip, hhead, strip, List.rdropWhile_idempotent]
  rfl

theorem Scalar.strip {t : Text} (h : Scalar t) : Scalar (strip t) :=
  fun c hc => h c ((strip_infixOf t).subset hc)

theorem blank_iff {t : Text} : blank t = true ↔ ∀ c ∈ t, isSpace c = true := by
  simp only [blank, List.isEmpty_iff, Python.strip, List.rdropWhile_eq_nil_iff]
  constructor
  · intro h c hc
    by_contra hs
    have hd : t.dropWhile isSpace ≠ [] := by
      intro he
      exact hs (List.dropWhile_eq_nil_iff.mp he c hc)
    have hh := h _ (List.head_mem hd)
    rw [List.head_dropWhile_not isSpace hd] at hh
    exact absurd hh (by simp)
  · intro h c hc
    exact h c ((List.dropWhile_suffix _).subset hc)

/-- What `strip` leaves is blank only when it is empty. -/
theorem blank_strip (t : Text) : blank (strip t) = blank t := by
  by_cases h : blank t = true
  · have : strip t = [] := by simpa [blank] using h
    rw [h, this]; rfl
  · rw [Bool.not_eq_true] at h
    rw [h, ← Bool.not_eq_true, blank_iff]
    intro hs
    rw [← Bool.not_eq_true] at h
    have hne : strip t ≠ [] := by simpa [blank] using h
    exact List.rdropWhile_last_not isSpace _ hne (hs _ (List.getLast_mem hne))

/-- Nothing is dropped up to an element that stays. -/
theorem prefix_rdropWhile {α : Type} {p : α → Bool} {l : List α} {a : α} (ha : p a = false)
    (t : List α) :
    l ++ [a] <+: (l ++ [a] ++ t).rdropWhile p := by
  induction t using List.reverseRecOn with
  | nil =>
    refine ⟨[], ?_⟩
    rw [List.append_nil, List.rdropWhile_concat_neg _ _ _ (by simp [ha])]
  | append_singleton t b ih =>
    rw [← List.append_assoc, List.rdropWhile_concat]
    split_ifs with hb
    · exact ih
    · exact ⟨t ++ [b], by simp⟩

/-! ### Lines -/

/-- The code points at which `str.splitlines` breaks a line. -/
def isLineBreak (c : CodePoint) : Bool :=
  (0xA ≤ c.val && c.val ≤ 0xD) || (0x1C ≤ c.val && c.val ≤ 0x1E) || c.val == 0x85 ||
    c.val == 0x2028 || c.val == 0x2029

/-- `str.splitlines`, with the current line accumulated in reverse. -/
def splitlinesFrom (line : Text) : Text → List Text
  | [] => if line.isEmpty then [] else [line.reverse]
  | [c] => if isLineBreak c then [line.reverse] else [(c :: line).reverse]
  | c :: d :: rest =>
    if c.val = 0xD ∧ d.val = 0xA then line.reverse :: splitlinesFrom [] rest
    else if isLineBreak c then line.reverse :: splitlinesFrom [] (d :: rest)
    else splitlinesFrom (c :: line) (d :: rest)

def splitlines (t : Text) : List Text := splitlinesFrom [] t

/-- Universal newlines of text-mode reading: `\r\n` and `\r` become `\n`. -/
def universalNewlines : Text → Text
  | [] => []
  | [c] => [if c.val = 0xD then 0xA else c]
  | c :: d :: rest =>
    if c.val = 0xD then
      if d.val = 0xA then 0xA :: universalNewlines rest else 0xA :: universalNewlines (d :: rest)
    else c :: universalNewlines (d :: rest)

theorem universalNewlines_eq_self : ∀ t : Text, (∀ c ∈ t, c.val ≠ 0xD) → universalNewlines t = t
  | [], _ => rfl
  | [c], h => by simp [universalNewlines, h c (by simp)]
  | c :: d :: rest, h => by
    have hc : c.val ≠ 0xD := h c (by simp)
    rw [universalNewlines, if_neg hc,
      universalNewlines_eq_self (d :: rest) (fun e he => h e (List.mem_cons_of_mem _ he))]

theorem splitlinesFrom_line : ∀ (line text rest : Text), (∀ c ∈ text, isLineBreak c = false) →
    splitlinesFrom line (text ++ 0xA :: rest) = (line.reverse ++ text) :: splitlines rest
  | line, [], rest, _ => by
    cases rest with
    | nil => simp [splitlinesFrom, splitlines, isLineBreak]
    | cons d rest => simp [splitlinesFrom, splitlines, isLineBreak]
  | line, [c], rest, h => by
    have hc := h c (by simp)
    have h13 : c.val ≠ 0xD := by intro he; simp [isLineBreak, he] at hc
    have ih := splitlinesFrom_line (c :: line) [] rest (by simp)
    simp only [List.nil_append, List.append_nil] at ih
    simp [splitlinesFrom, h13, hc, ih]
  | line, c :: d :: text, rest, h => by
    have hc := h c (by simp)
    have h13 : c.val ≠ 0xD := by intro he; simp [isLineBreak, he] at hc
    have ih := splitlinesFrom_line (c :: line) (d :: text) rest
      (fun e he => h e (List.mem_cons_of_mem _ he))
    simp only [List.cons_append] at ih
    simp [splitlinesFrom, h13, hc, ih]

/-- A line without breaks, ended by `\n`, is the first line. -/
theorem splitlines_line {text : Text} (rest : Text) (h : ∀ c ∈ text, isLineBreak c = false) :
    splitlines (text ++ 0xA :: rest) = text :: splitlines rest := by
  simpa [splitlines] using splitlinesFrom_line [] text rest h

/-! ### The UTF-8 codec -/

/-- The character of a code point; surrogates have none and are never asked for. -/
def toChar (c : CodePoint) : Char := Char.ofNat c.val

theorem ofChar_toChar {c : CodePoint} (h : isSurrogate c = false) : ofChar (toChar c) = c := by
  have hv : c.val.isValidChar := by
    have := c.isLt
    rw [isSurrogate_eq_false] at h
    simp only [Nat.isValidChar]
    omega
  apply Fin.ext
  change (Char.ofNat c.val).toNat = c.val
  rw [Char.ofNat, dif_pos hv]
  rfl

/-- `str.encode("utf-8")`. -/
def encodeUtf8 (t : Text) : Except PyError (List UInt8) :=
  if Scalar t then .ok (t.flatMap fun c => String.utf8EncodeChar (toChar c))
  else .error .unicodeEncodeError

/-- `bytes.decode("utf-8")`. -/
def decodeUtf8 (bytes : List UInt8) : Except PyError Text :=
  match bytes.toByteArray.utf8Decode? with
  | some chars => .ok (chars.toList.map ofChar)
  | none => .error .unicodeDecodeError

theorem encodeUtf8_eq_ok {t : Text} {bytes : List UInt8} :
    encodeUtf8 t = .ok bytes ↔
      Scalar t ∧ t.flatMap (fun c => String.utf8EncodeChar (toChar c)) = bytes := by
  unfold encodeUtf8
  split_ifs with h <;> simp [h]

theorem encodeUtf8_append {s t : Text} {a b : List UInt8} (hs : encodeUtf8 s = .ok a)
    (ht : encodeUtf8 t = .ok b) : encodeUtf8 (s ++ t) = .ok (a ++ b) := by
  rw [encodeUtf8_eq_ok] at hs ht ⊢
  exact ⟨scalar_append.mpr ⟨hs.1, ht.1⟩, by rw [List.flatMap_append, hs.2, ht.2]⟩

theorem decodeUtf8_encodeUtf8 {t : Text} {bytes : List UInt8} (h : encodeUtf8 t = .ok bytes) :
    decodeUtf8 bytes = .ok t := by
  obtain ⟨ht, rfl⟩ := encodeUtf8_eq_ok.mp h
  have he : (t.flatMap fun c => String.utf8EncodeChar (toChar c)).toByteArray =
      (t.map toChar).utf8Encode := by
    simp [List.utf8Encode, List.flatMap_map]
  rw [decodeUtf8, he, List.utf8Decode?_utf8Encode]
  simp only [List.map_map, Except.ok.injEq]
  refine (List.map_congr_left fun c hc => ?_).trans (List.map_id _)
  exact ofChar_toChar (ht c hc)

end SentinelGRC.Python
