import SentinelGRC.Python.Datetime

/-!
Aware `datetime` values and `astimezone` to UTC. The instant can fall before year 1 or
after year 9999, where there is no `datetime`.
-/

namespace SentinelGRC.Python

/-! ### Neighbouring days -/

theorem daysInMonth_pos (y m : ℕ) : 1 ≤ daysInMonth y m := by
  unfold daysInMonth
  split_ifs <;> omega

/-- The day before, but not before 0001-01-01. -/
def Date.dayBefore (d : Date) : Option Date :=
  if h : 1 < d.day then
    some { d with
      day := d.day - 1
      day_range := ⟨by omega, (Nat.sub_le _ _).trans d.day_range.2⟩ }
  else if h : 1 < d.month then
    some { d with
      month := d.month - 1
      day := daysInMonth d.year (d.month - 1)
      month_range := ⟨by omega, (Nat.sub_le _ _).trans d.month_range.2⟩
      day_range := ⟨daysInMonth_pos _ _, le_refl _⟩ }
  else if h : 1 < d.year then
    some { d with
      year := d.year - 1
      month := 12
      day := 31
      year_range := ⟨by omega, (Nat.sub_le _ _).trans d.year_range.2⟩
      month_range := ⟨by omega, le_refl _⟩
      day_range := ⟨by omega, le_refl _⟩ }
  else none

/-- The day after, but not after 9999-12-31. -/
def Date.dayAfter (d : Date) : Option Date :=
  if h : d.day < daysInMonth d.year d.month then
    some { d with day := d.day + 1, day_range := ⟨by omega, h⟩ }
  else if h : d.month < 12 then
    some { d with
      month := d.month + 1
      day := 1
      month_range := ⟨by omega, h⟩
      day_range := ⟨le_refl _, daysInMonth_pos _ _⟩ }
  else if h : d.year < 9999 then
    some { d with
      year := d.year + 1
      month := 1
      day := 1
      year_range := ⟨by omega, h⟩
      month_range := ⟨le_refl _, by omega⟩
      day_range := ⟨le_refl _, daysInMonth_pos _ _⟩ }
  else none

/-- `date.min`. -/
def Date.IsFirst (d : Date) : Prop := d.year = 1 ∧ d.month = 1 ∧ d.day = 1

/-- `date.max`. -/
def Date.IsLast (d : Date) : Prop := d.year = 9999 ∧ d.month = 12 ∧ d.day = 31

theorem Date.dayBefore_eq_none {d : Date} : d.dayBefore = none ↔ d.IsFirst := by
  have hy := d.year_range
  have hm := d.month_range
  have hd := d.day_range.1
  unfold dayBefore IsFirst
  split_ifs with h₁ h₂ h₃
  · exact iff_of_false nofun (by omega)
  · exact iff_of_false nofun (by omega)
  · exact iff_of_false nofun (by omega)
  · exact iff_of_true rfl (by omega)

theorem Date.dayAfter_eq_none {d : Date} : d.dayAfter = none ↔ d.IsLast := by
  have hy := d.year_range
  have hm := d.month_range
  have hd := d.day_range
  have hlast : d.month = 12 → daysInMonth d.year d.month = 31 := by
    intro h
    rw [h]
    rfl
  unfold dayAfter IsLast
  split_ifs with h₁ h₂ h₃
  · exact iff_of_false nofun (by omega)
  · exact iff_of_false nofun (by omega)
  · exact iff_of_false nofun (by omega)
  · exact iff_of_true rfl (by omega)

/-! ### Conversion to UTC -/

/-- The microseconds of a day. -/
def dayLength : ℤ := 86400000000

theorem zero_offset : -dayLength < 0 ∧ 0 < dayLength := by decide

/-- A `datetime` with an offset in microseconds, less than a day. -/
structure AwareDatetime extends Date where
  hour : Fin 24
  minute : Fin 60
  second : Fin 60
  microsecond : Fin 1000000
  offset : ℤ
  offset_range : -dayLength < offset ∧ offset < dayLength

/-- The time of the instant, counted in microseconds from midnight UTC of the local date. -/
def AwareDatetime.utcTime (d : AwareDatetime) : ℤ :=
  1000000 * (3600 * d.hour.val + 60 * d.minute.val + d.second.val) + d.microsecond.val - d.offset

/-- The UTC date of the instant. -/
def AwareDatetime.utcDate (d : AwareDatetime) : Option Date :=
  if d.utcTime < 0 then d.toDate.dayBefore
  else if dayLength ≤ d.utcTime then d.toDate.dayAfter
  else some d.toDate

/-- The fields of a time of day in microseconds. -/
def UtcDatetime.ofTime (date : Date) (t : ℤ) : UtcDatetime where
  toDate := date
  hour := ⟨(t / 3600000000 % 24).toNat, by omega⟩
  minute := ⟨(t / 60000000 % 60).toNat, by omega⟩
  second := ⟨(t / 1000000 % 60).toNat, by omega⟩
  microsecond := ⟨(t % 1000000).toNat, by omega⟩

/-- `astimezone(timezone.utc)`. -/
def AwareDatetime.astimezone (d : AwareDatetime) : Except PyError UtcDatetime :=
  match d.utcDate with
  | none => .error .overflowError
  | some date => .ok (.ofTime date d.utcTime)

/-- The instant falls in the years 1 to 9999 of UTC. -/
def AwareDatetime.InRange (d : AwareDatetime) : Prop :=
  (d.toDate.IsFirst → 0 ≤ d.utcTime) ∧ (d.toDate.IsLast → d.utcTime < dayLength)

theorem AwareDatetime.utcDate_eq_none {d : AwareDatetime} : d.utcDate = none ↔ ¬ d.InRange := by
  have hlength : 0 < dayLength := by decide
  unfold utcDate InRange
  split_ifs with h₁ h₂
  · rw [Date.dayBefore_eq_none]
    constructor
    · intro hfirst h
      exact absurd (h.1 hfirst) (not_le.mpr h₁)
    · intro h
      by_contra hfirst
      exact h ⟨fun hf => absurd hf hfirst, fun _ => by omega⟩
  · rw [Date.dayAfter_eq_none]
    constructor
    · intro hlast h
      exact absurd (h.2 hlast) (not_lt.mpr h₂)
    · intro h
      by_contra hlast
      exact h ⟨fun _ => by omega, fun hl => absurd hl hlast⟩
  · exact iff_of_false nofun (not_not.mpr ⟨fun _ => by omega, fun _ => by omega⟩)

/-- A conversion fails with an overflow, and only outside the years that `datetime` has. -/
theorem AwareDatetime.astimezone_cases (d : AwareDatetime) :
    (d.InRange ∧ ∃ u, d.astimezone = .ok u) ∨
      (¬ d.InRange ∧ d.astimezone = .error .overflowError) := by
  unfold astimezone
  cases h : d.utcDate with
  | none => exact .inr ⟨utcDate_eq_none.mp h, rfl⟩
  | some date =>
    refine .inl ⟨?_, _, rfl⟩
    by_contra hrange
    rw [utcDate_eq_none.mpr hrange] at h
    cases h

/-- The order of two aware instants in UTC: field by field. -/
def UtcDatetime.key (d : UtcDatetime) : List ℕ :=
  [d.year, d.month, d.day, d.hour.val, d.minute.val, d.second.val, d.microsecond.val]

end SentinelGRC.Python
