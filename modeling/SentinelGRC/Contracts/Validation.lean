import SentinelGRC.Python.AwareDatetime
import SentinelGRC.Python.Dict

/-!
The validation primitives that the external contracts share: the text patterns, each
as the test that `fullmatch` makes, and the timestamp profile.
-/

namespace SentinelGRC.Contracts

open Python Json

variable {F : Type}

/-! ### Text patterns -/

/-- The control characters and invisible marks that every pattern excludes. -/
def isExcluded (c : CodePoint) : Bool :=
  c.val ≤ 0x1F || (0x7F ≤ c.val && c.val ≤ 0x9F) || c.val == 0x200B || c.val == 0x2028 ||
    c.val == 0x2029 || c.val == 0xFEFF

/-- `EVIDENCE_TEXT_PATTERN`: neither excluded nor white space. -/
def isEvidenceText (c : CodePoint) : Bool := !isSpace c && !isExcluded c

/-- `CANONICAL_TEXT`. -/
def canonicalText (t : Text) : Bool :=
  t.head?.any isEvidenceText && t.getLast?.any isEvidenceText && t.all fun c => !isExcluded c

def isLowerAlnum (c : CodePoint) : Bool := isDigit c || (0x61 ≤ c.val && c.val ≤ 0x7A)

def isAlnum (c : CodePoint) : Bool := isLowerAlnum c || (0x41 ≤ c.val && c.val ≤ 0x5A)

/-- `[._:-]`. -/
def isIdentifierMark (c : CodePoint) : Bool :=
  c == ofChar '.' || c == ofChar '_' || c == ofChar ':' || c == ofChar '-'

/-- One letter or digit and up to 127 more or marks. -/
def identifierOf (alnum : CodePoint → Bool) (t : Text) : Bool :=
  t.head?.any alnum && t.length ≤ 128 && t.all fun c => alnum c || isIdentifierMark c

/-- `IDENTIFIER`. -/
def isIdentifier (t : Text) : Bool := identifierOf isAlnum t

/-- `SOURCE_IDENTIFIER`. -/
def isSourceIdentifier (t : Text) : Bool := identifierOf isLowerAlnum t

/-- `is_canonical_text`. -/
def isCanonicalText (value : Json F) (maximum : ℕ) : Bool :=
  match value with
  | .str t => 1 ≤ t.length && t.length ≤ maximum && canonicalText t
  | _ => false

/-! ### Evidence references -/

def isHostLabel (t : Text) : Bool :=
  t.head?.any isAlnum && t.getLast?.any isAlnum && t.all fun c => isAlnum c || c == ofChar '-'

/-- `EVIDENCE_HOST_PATTERN`. -/
def isEvidenceHost (t : Text) : Bool := (t.splitOn (ofChar '.')).all isHostLabel

/-- `[/?#]`. -/
def endsHost (c : CodePoint) : Bool := c == ofChar '/' || c == ofChar '?' || c == ofChar '#'

/-- A host, and then a path, a query or a fragment. -/
def isLocation (t : Text) : Bool :=
  isEvidenceHost (t.takeWhile fun c => !endsHost c) &&
    (t.dropWhile fun c => !endsHost c).all isEvidenceText

/-- `EVIDENCE_REFERENCE`. -/
def evidenceReference (t : Text) : Bool :=
  (match t.dropPrefix? (lit "urn:") with
    | some name => !name.isEmpty && name.all isEvidenceText
    | none => false) ||
  [lit "https://", lit "azblob://", lit "sample://"].any fun scheme =>
    match t.dropPrefix? scheme with
    | some location => isLocation location
    | none => false

/-- `is_evidence_reference`. -/
def isEvidenceReference (value : Json F) : Bool :=
  match value with
  | .str t => isCanonicalText (.str t : Json F) 512 && evidenceReference t
  | _ => false

/-! ### Timestamps -/

/-- A match of `RFC3339_PATTERN`; there is no offset after `Z`. -/
structure Rfc3339 where
  year : ℕ
  month : ℕ
  day : ℕ
  hour : ℕ
  minute : ℕ
  second : ℕ
  fraction : Text
  offset : Option (Bool × ℕ × ℕ)

def takeChar (c : Char) (t : Text) : Option Text :=
  if t.head? = some (ofChar c) then some t.tail else none

/-- `(?:\.\d{1,6})?`; what follows is no digit. -/
def takeFraction (t : Text) : Option (Text × Text) :=
  match takeChar '.' t with
  | none => some ([], t)
  | some t =>
    let digits := t.takeWhile isDigit
    if 1 ≤ digits.length ∧ digits.length ≤ 6 then some (digits, t.dropWhile isDigit) else none

/-- `(?:Z|[+-]\d{2}:\d{2})$`. -/
def readOffset (t : Text) : Option (Option (Bool × ℕ × ℕ)) :=
  if t = lit "Z" then some none
  else do
    let negative ← if t.head? = some (ofChar '-') then some true
      else if t.head? = some (ofChar '+') then some false else none
    let (hours, t) ← takeDigits 2 t.tail
    let t ← takeChar ':' t
    let (minutes, t) ← takeDigits 2 t
    if t.isEmpty then some (some (negative, hours, minutes)) else none

/-- `RFC3339_TIMESTAMP.fullmatch(t)`. -/
def rfc3339 (t : Text) : Option Rfc3339 := do
  let (year, t) ← takeDigits 4 t
  let t ← takeChar '-' t
  let (month, t) ← takeDigits 2 t
  let t ← takeChar '-' t
  let (day, t) ← takeDigits 2 t
  let t ← takeChar 'T' t
  let (hour, t) ← takeDigits 2 t
  let t ← takeChar ':' t
  let (minute, t) ← takeDigits 2 t
  let t ← takeChar ':' t
  let (second, t) ← takeDigits 2 t
  let (fraction, t) ← takeFraction t
  let offset ← readOffset t
  return ⟨year, month, day, hour, minute, second, fraction, offset⟩

/-- The offset in microseconds, after `Z` is replaced by `+00:00`. -/
def Rfc3339.utcOffset (m : Rfc3339) : ℤ :=
  match m.offset with
  | none => 0
  | some (negative, hours, minutes) =>
    (if negative then -1 else 1) * (60000000 * (60 * hours + minutes : ℕ))

/-- `datetime.fromisoformat` on a match: its fields must name a date, a time of day and an
offset of less than a day. -/
def Rfc3339.datetime (m : Rfc3339) : Option AwareDatetime :=
  let microsecond := ofDigits (m.fraction ++ List.replicate (6 - m.fraction.length) (ofChar '0'))
  if h : (1 ≤ m.year ∧ m.year ≤ 9999) ∧ (1 ≤ m.month ∧ m.month ≤ 12) ∧
      (1 ≤ m.day ∧ m.day ≤ daysInMonth m.year m.month) ∧ m.hour < 24 ∧ m.minute < 60 ∧
      m.second < 60 ∧ microsecond < 1000000 ∧
      (-dayLength < m.utcOffset ∧ m.utcOffset < dayLength)
  then some
    { year := m.year
      month := m.month
      day := m.day
      year_range := h.1
      month_range := h.2.1
      day_range := h.2.2.1
      hour := ⟨m.hour, h.2.2.2.1⟩
      minute := ⟨m.minute, h.2.2.2.2.1⟩
      second := ⟨m.second, h.2.2.2.2.2.1⟩
      microsecond := ⟨microsecond, h.2.2.2.2.2.2.1⟩
      offset := m.utcOffset
      offset_range := h.2.2.2.2.2.2.2 }
  else none

/-- `f"{label} {name} is invalid"`. -/
def invalid (label name : Text) : PyError := .valueError (label ++ lit " " ++ name ++ lit " is invalid")

/-- `parse_rfc3339`; a match always has an offset. -/
def parseRfc3339 (value : Json F) (label name : Text) : Except PyError AwareDatetime :=
  match value with
  | .str t =>
    match (rfc3339 t).bind Rfc3339.datetime with
    | some parsed => .ok parsed
    | none => .error (invalid label name)
  | _ => .error (invalid label name)

end SentinelGRC.Contracts
