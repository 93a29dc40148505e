import SentinelGRC.Python.Decimal

/-! Calendar dates and UTC instants of the `datetime` module, with their ISO
text. A date that does not exist cannot be built. -/

namespace SentinelGRC.Python

def isLeap (y : ℕ) : Bool := y % 4 == 0 && (y % 100 != 0 || y % 400 == 0)

def daysInMonth (y m : ℕ) : ℕ :=
  if m = 2 then if isLeap y then 29 else 28
  else if m = 4 ∨ m = 6 ∨ m = 9 ∨ m = 11 then 30
  else 31

/-- `datetime.date`. -/
structure Date where
  year : ℕ
  month : ℕ
  day : ℕ
  year_range : 1 ≤ year ∧ year ≤ 9999
  month_range : 1 ≤ month ∧ month ≤ 12
  day_range : 1 ≤ day ∧ day ≤ daysInMonth year month

/-! ### Reading dates -/

/-- Exactly `n` ASCII digits, and what follows them. -/
def takeDigits (n : ℕ) (t : Text) : Option (ℕ × Text) :=
  if (t.take n).length = n ∧ (t.take n).all isDigit then some (ofDigits (t.take n), t.drop n)
  else none

/-- The day number of January 1st, where 0001-01-01 is day 1. -/
def firstOrdinal (y : ℕ) : ℕ := 365 * (y - 1) + (y - 1) / 4 - (y - 1) / 100 + (y - 1) / 400 + 1

/-- The weekday of January 1st, from Monday 0. -/
def firstWeekday (y : ℕ) : ℕ := (firstOrdinal y + 6) % 7

/-- A year, week and weekday of the ISO calendar that name a date up to 9999-12-31. -/
def isIsoWeekDate (y week day : ℕ) : Bool :=
  let hasWeek53 := firstWeekday y == 3 || (firstWeekday y == 2 && isLeap y)
  let monday := firstOrdinal y + (if firstWeekday y > 3 then 7 else 0) - firstWeekday y
  1 ≤ y && y ≤ 9999 && 1 ≤ week && (week ≤ 52 || (week == 53 && hasWeek53)) && 1 ≤ day && day ≤ 7 &&
    monday + 7 * (week - 1) + (day - 1) ≤ 3652059

def isDate (y m d : ℕ) : Bool :=
  1 ≤ y && y ≤ 9999 && 1 ≤ m && m ≤ 12 && 1 ≤ d && d ≤ daysInMonth y m

/-- Skip the separator, when the text uses one. -/
def takeSeparator (uses : Bool) (t : Text) : Option Text :=
  if uses then if t.head? = some (ofChar '-') then some t.tail else none else some t

/-- `date.fromisoformat(t)` succeeds: `YYYY-MM-DD`, `YYYY-Www` or `YYYY-Www-D`, each also
without its hyphens. -/
def isIsoDate (t : Text) : Bool :=
  ((do
    let (year, rest) ← takeDigits 4 t
    let uses := rest.head? == some (ofChar '-')
    let rest ← takeSeparator uses rest
    if rest.head? == some (ofChar 'W') then
      let (week, rest) ← takeDigits 2 rest.tail
      if rest.isEmpty then return isIsoWeekDate year week 1
      let rest ← takeSeparator uses rest
      let (day, rest) ← takeDigits 1 rest
      return rest.isEmpty && isIsoWeekDate year week day
    else
      let (month, rest) ← takeDigits 2 rest
      let rest ← takeSeparator uses rest
      let (day, rest) ← takeDigits 2 rest
      return rest.isEmpty && isDate year month day) : Option Bool).getD false

example : isIsoDate (lit "2024-02-29") = true ∧ isIsoDate (lit "2023-02-29") = false ∧
    isIsoDate (lit "2026W53") = true ∧ isIsoDate (lit "2025-W53-1") = false := by decide

/-! ### Instants -/

theorem year_2026 : 1 ≤ 2026 ∧ 2026 ≤ 9999 := by decide

instance neZero_hours : NeZero 24 := ⟨by decide⟩

instance neZero_sixty : NeZero 60 := ⟨by decide⟩

instance neZero_microseconds : NeZero 1000000 := ⟨by decide⟩

/-- A `datetime` in UTC. -/
structure UtcDatetime extends Date where
  hour : Fin 24
  minute : Fin 60
  second : Fin 60
  microsecond : Fin 1000000

/-- `f"{n:0{width}d}"`. -/
def padText (width n : ℕ) : Text :=
  List.replicate (width - (natText n).length) (ofChar '0') ++ natText n

def UtcDatetime.fraction (d : UtcDatetime) : Text :=
  if d.microsecond.val = 0 then [] else ofChar '.' :: padText 6 d.microsecond.val

/-- `isoformat().replace("+00:00", "Z")`. -/
def UtcDatetime.isoformatZ (d : UtcDatetime) : Text :=
  padText 4 d.year ++ lit "-" ++ padText 2 d.month ++ lit "-" ++ padText 2 d.day ++ lit "T" ++
    padText 2 d.hour.val ++ lit ":" ++ padText 2 d.minute.val ++ lit ":" ++ padText 2 d.second.val ++
    d.fraction ++ lit "Z"

/-- The printable ASCII that the text of an instant is made of. -/
def isStampChar (c : CodePoint) : Bool := 0x2B ≤ c.val && c.val ≤ 0x5A

theorem all_padText (w n : ℕ) : (padText w n).all isStampChar = true := by
  have hdigit {c : CodePoint} (hc : isDigit c = true) : isStampChar c = true := by
    rw [isDigit_iff] at hc
    simp only [isStampChar, Bool.and_eq_true, decide_eq_true_eq]
    omega
  rw [List.all_eq_true]
  intro c hc
  rcases List.mem_append.mp hc with hc | hc
  · obtain rfl := List.eq_of_mem_replicate hc
    decide
  · exact hdigit (isDigit_natText c hc)

theorem all_fraction (d : UtcDatetime) : d.fraction.all isStampChar = true := by
  unfold UtcDatetime.fraction
  split_ifs
  · rfl
  · rw [List.all_cons, all_padText]
    decide

theorem all_isoformatZ (d : UtcDatetime) : d.isoformatZ.all isStampChar = true := by
  simp only [UtcDatetime.isoformatZ, List.all_append, all_padText, all_fraction, Bool.and_true,
    Bool.true_and]
  decide

end SentinelGRC.Python
