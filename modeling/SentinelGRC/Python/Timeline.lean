import Mathlib.Order.Monotone.Basic
import Mathlib.Algebra.Order.BigOperators.Group.List
import SentinelGRC.Python.AwareDatetime

/-!
The line of instants. Days are numbered from 0001-01-01 and the microseconds of an instant
are counted from the midnight before day 1, so an instant has one number however it is
written, and a number belongs to one UTC date and time of day.
-/

namespace SentinelGRC.Python

/-! ### Intervals laid end to end -/

/-- A position on a line cut into intervals determines the interval and the offset in it. -/
theorem interval_unique {start : ℕ → ℕ} (hmono : Monotone start) {m n d e : ℕ}
    (hd : start m + d < start (m + 1)) (he : start n + e < start (n + 1))
    (h : start m + d = start n + e) : m = n ∧ d = e := by
  rcases lt_trichotomy m n with hlt | rfl | hlt
  · have hle := hmono (Nat.succ_le_of_lt hlt)
    rw [Nat.succ_eq_add_one] at hle
    omega
  · exact ⟨rfl, Nat.add_left_cancel h⟩
  · have hle := hmono (Nat.succ_le_of_lt hlt)
    rw [Nat.succ_eq_add_one] at hle
    omega

/-! ### Day numbers -/

/-- The days of the months `1` to `m` of a year. -/
def daysThrough (y : ℕ) : ℕ → ℕ
  | 0 => 0
  | m + 1 => daysThrough y m + daysInMonth y (m + 1)

theorem daysThrough_succ (y m : ℕ) :
    daysThrough y (m + 1) = daysThrough y m + daysInMonth y (m + 1) := rfl

theorem daysThrough_mono (y : ℕ) : Monotone (daysThrough y) :=
  monotone_nat_of_le_succ fun _ => Nat.le_add_right _ _

@[simp] theorem daysThrough_zero (y : ℕ) : daysThrough y 0 = 0 := rfl

theorem daysThrough_twelve (y : ℕ) : daysThrough y 12 = if isLeap y then 366 else 365 := by
  simp only [daysThrough, daysInMonth]
  cases isLeap y <;> rfl

theorem isLeap_iff (y : ℕ) : isLeap y = true ↔ 4 ∣ y ∧ (100 ∣ y → 400 ∣ y) := by
  simp only [isLeap, Bool.and_eq_true, Bool.or_eq_true, beq_iff_eq, bne_iff_ne, Nat.dvd_iff_mod_eq_zero,
    imp_iff_not_or, ne_eq]

/-- The months of a year fill it. -/
theorem firstOrdinal_succ {y : ℕ} (hy : 1 ≤ y) :
    firstOrdinal (y + 1) = firstOrdinal y + daysThrough y 12 := by
  obtain ⟨k, rfl⟩ := Nat.exists_eq_add_of_le' hy
  have hcenturies : k / 100 ≤ k / 4 := Nat.div_le_div_left (by decide) (by decide)
  have h100 : 100 ∣ k + 1 → 4 ∣ k + 1 := (show 4 ∣ 100 by decide).trans
  have h400 : 400 ∣ k + 1 → 100 ∣ k + 1 := (show 100 ∣ 400 by decide).trans
  rw [daysThrough_twelve, firstOrdinal, firstOrdinal, Nat.add_sub_cancel, Nat.add_sub_cancel,
    Nat.succ_div, Nat.succ_div, Nat.succ_div]
  by_cases h₄ : 4 ∣ k + 1
  · by_cases h₁ : 100 ∣ k + 1
    · by_cases h₂ : 400 ∣ k + 1
      · rw [if_pos h₄, if_pos h₁, if_pos h₂, if_pos ((isLeap_iff _).mpr ⟨h₄, fun _ => h₂⟩)]
        clear h₄ h₁ h₂ h100 h400
        omega
      · rw [if_pos h₄, if_pos h₁, if_neg h₂, if_neg fun h => h₂ (((isLeap_iff _).mp h).2 h₁)]
        clear h₄ h₁ h₂ h100 h400
        omega
    · rw [if_pos h₄, if_neg h₁, if_neg (mt h400 h₁),
        if_pos ((isLeap_iff _).mpr ⟨h₄, fun h => absurd h h₁⟩)]
      clear h₄ h₁ h100 h400
      omega
  · rw [if_neg h₄, if_neg (mt h100 h₄), if_neg (mt (fun h => h100 (h400 h)) h₄),
      if_neg fun h => h₄ ((isLeap_iff _).mp h).1]
    clear h₄ h100 h400
    omega

theorem firstOrdinal_mono : Monotone firstOrdinal := by
  refine monotone_nat_of_le_succ fun y => ?_
  rcases Nat.eq_zero_or_pos y with rfl | hy
  · decide
  · rw [firstOrdinal_succ hy]
    exact Nat.le_add_right _ _

/-- The days of the year before the date. -/
def Date.dayOfYear (d : Date) : ℕ := daysThrough d.year (d.month - 1) + (d.day - 1)

/-- `date.toordinal()`. -/
def Date.toordinal (d : Date) : ℕ := firstOrdinal d.year + d.dayOfYear

example : (⟨1, 1, 1, by decide, by decide, by decide⟩ : Date).toordinal = 1 ∧
    (⟨9999, 12, 31, by decide, by decide, by decide⟩ : Date).toordinal = 3652059 := by decide

theorem Date.day_lt (d : Date) :
    daysThrough d.year (d.month - 1) + (d.day - 1) < daysThrough d.year (d.month - 1 + 1) := by
  have hday := d.day_range
  have hmonth : d.month - 1 + 1 = d.month := Nat.sub_add_cancel d.month_range.1
  rw [daysThrough_succ, hmonth]
  omega

theorem Date.dayOfYear_lt (d : Date) : d.dayOfYear < daysThrough d.year 12 := by
  have hmonth : d.month - 1 + 1 ≤ 12 := by
    have := d.month_range
    omega
  exact d.day_lt.trans_le (daysThrough_mono d.year hmonth)

theorem Date.toordinal_lt (d : Date) : d.toordinal < firstOrdinal (d.year + 1) := by
  rw [firstOrdinal_succ d.year_range.1]
  exact Nat.add_lt_add_left d.dayOfYear_lt _

theorem Date.toordinal_range (d : Date) : 1 ≤ d.toordinal ∧ d.toordinal < 3652060 := by
  have hfirst : 1 ≤ firstOrdinal d.year := Nat.le_add_left _ _
  have hlast : firstOrdinal (d.year + 1) ≤ firstOrdinal 10000 :=
    firstOrdinal_mono (Nat.succ_le_succ d.year_range.2)
  exact ⟨hfirst.trans (Nat.le_add_right _ _), d.toordinal_lt.trans_le hlast⟩

theorem Date.IsFirst.toordinal {d : Date} (h : d.IsFirst) : d.toordinal = 1 := by
  rw [Date.toordinal, Date.dayOfYear, h.1, h.2.1, h.2.2]
  rfl

theorem Date.IsLast.toordinal {d : Date} (h : d.IsLast) : d.toordinal = 3652059 := by
  rw [Date.toordinal, Date.dayOfYear, h.1, h.2.1, h.2.2]
  decide

theorem Date.toordinal_injective {d e : Date} (h : d.toordinal = e.toordinal) : d = e := by
  obtain ⟨hyear, hdays⟩ := interval_unique firstOrdinal_mono d.toordinal_lt e.toordinal_lt h
  rw [dayOfYear, dayOfYear, hyear] at hdays
  have hd := d.day_lt
  rw [hyear] at hd
  obtain ⟨hmonth, hday⟩ := interval_unique (daysThrough_mono e.year) hd e.day_lt hdays
  have hmonths := And.intro d.month_range e.month_range
  have hfirst := And.intro d.day_range.1 e.day_range.1
  rcases d with ⟨y, m, n⟩
  rcases e with ⟨y', m', n'⟩
  simp only at hyear hmonth hday hmonths hfirst
  obtain rfl : y = y' := hyear
  obtain rfl : m = m' := by omega
  obtain rfl : n = n' := by omega
  rfl

theorem Date.toordinal_dayAfter {d e : Date} (h : d.dayAfter = some e) :
    e.toordinal = d.toordinal + 1 := by
  have hday := d.day_range
  have hmonth := d.month_range
  unfold dayAfter at h
  split_ifs at h with h₁ h₂ h₃
  · obtain rfl := Option.some.inj h
    simp only [toordinal, dayOfYear]
    omega
  · obtain rfl := Option.some.inj h
    have hlast : d.day = daysInMonth d.year d.month := by omega
    have hthrough : daysThrough d.year d.month =
        daysThrough d.year (d.month - 1) + daysInMonth d.year d.month := by
      obtain ⟨m, hm⟩ := Nat.exists_eq_add_of_le' hmonth.1
      rw [hm]
      rfl
    simp only [toordinal, dayOfYear, Nat.add_sub_cancel, hthrough]
    omega
  · obtain rfl := Option.some.inj h
    have hlast : d.month = 12 := by omega
    have hend : daysThrough d.year 12 = daysThrough d.year 11 + daysInMonth d.year 12 := rfl
    rw [hlast] at h₁ hday
    simp only [toordinal, dayOfYear, firstOrdinal_succ d.year_range.1, hlast, hend, Nat.sub_self,
      Nat.reduceSub, daysThrough_zero]
    omega

theorem Date.toordinal_dayBefore {d e : Date} (h : d.dayBefore = some e) :
    e.toordinal + 1 = d.toordinal := by
  have hday := d.day_range
  have hmonth := d.month_range
  unfold dayBefore at h
  split_ifs at h with h₁ h₂ h₃
  · obtain rfl := Option.some.inj h
    simp only [toordinal, dayOfYear]
    omega
  · obtain rfl := Option.some.inj h
    obtain ⟨m, hm⟩ := Nat.exists_eq_add_of_le' (Nat.le_of_lt h₂)
    obtain ⟨k, rfl⟩ := Nat.exists_eq_add_of_le' (show 1 ≤ m by omega)
    have hthrough := daysThrough_succ d.year k
    have hpos := daysInMonth_pos d.year (k + 1)
    simp only [toordinal, dayOfYear, hm, Nat.add_sub_cancel, hthrough]
    omega
  · obtain rfl := Option.some.inj h
    obtain ⟨y, hy⟩ := Nat.exists_eq_add_of_le' (Nat.le_of_lt h₃)
    have hyear := firstOrdinal_succ (y := y) (by omega)
    have hend : daysThrough y 12 = daysThrough y 11 + 31 := rfl
    have hfirst : d.month = 1 := by omega
    simp only [toordinal, dayOfYear, hy, hfirst, Nat.add_sub_cancel, hyear, hend, Nat.sub_self,
      Nat.reduceSub, daysThrough_zero]
    omega

/-! ### Instants -/

/-- The microsecond of the instant. -/
def AwareDatetime.instant (d : AwareDatetime) : ℤ := dayLength * d.toordinal + d.utcTime

/-- The microsecond of the day. -/
def UtcDatetime.timeOfDay (d : UtcDatetime) : ℤ :=
  1000000 * (3600 * d.hour.val + 60 * d.minute.val + d.second.val) + d.microsecond.val

/-- The microsecond of the instant. -/
def UtcDatetime.instant (d : UtcDatetime) : ℤ := dayLength * d.toordinal + d.timeOfDay

theorem UtcDatetime.timeOfDay_range (d : UtcDatetime) :
    0 ≤ d.timeOfDay ∧ d.timeOfDay < dayLength := by
  have hhour := d.hour.isLt
  have hminute := d.minute.isLt
  have hsecond := d.second.isLt
  have hmicrosecond := d.microsecond.isLt
  unfold timeOfDay dayLength
  omega

theorem UtcDatetime.timeOfDay_ofTime (date : Date) (t : ℤ) :
    (ofTime date t).timeOfDay = t % dayLength := by
  simp only [timeOfDay, ofTime, dayLength]
  omega

theorem UtcDatetime.toDate_ofTime (date : Date) (t : ℤ) : (ofTime date t).toDate = date := rfl

/-- An instant in UTC is determined by its number. -/
theorem UtcDatetime.instant_injective {d e : UtcDatetime} (h : d.instant = e.instant) : d = e := by
  have hd := d.timeOfDay_range
  have he := e.timeOfDay_range
  unfold instant dayLength at *
  have hdate : d.toDate = e.toDate := by
    apply Date.toordinal_injective
    omega
  have htime : d.timeOfDay = e.timeOfDay := by omega
  unfold timeOfDay at htime
  have hhour := And.intro d.hour.isLt e.hour.isLt
  have hminute := And.intro d.minute.isLt e.minute.isLt
  have hsecond := And.intro d.second.isLt e.second.isLt
  have hmicrosecond := And.intro d.microsecond.isLt e.microsecond.isLt
  rcases d with ⟨date, hour, minute, second, microsecond⟩
  rcases e with ⟨date', hour', minute', second', microsecond'⟩
  simp only at hdate htime hhour hminute hsecond hmicrosecond
  obtain rfl : date = date' := hdate
  obtain rfl : hour = hour' := by apply Fin.ext; omega
  obtain rfl : minute = minute' := by apply Fin.ext; omega
  obtain rfl : second = second' := by apply Fin.ext; omega
  obtain rfl : microsecond = microsecond' := by apply Fin.ext; omega
  rfl

theorem AwareDatetime.utcTime_range (d : AwareDatetime) :
    -dayLength < d.utcTime ∧ d.utcTime < 2 * dayLength := by
  have hhour := d.hour.isLt
  have hminute := d.minute.isLt
  have hsecond := d.second.isLt
  have hmicrosecond := d.microsecond.isLt
  have hoffset := d.offset_range
  unfold utcTime
  unfold dayLength at *
  omega

/-- A conversion to UTC keeps the instant. -/
theorem AwareDatetime.instant_astimezone {d : AwareDatetime} {u : UtcDatetime}
    (h : d.astimezone = .ok u) : u.instant = d.instant := by
  have hrange := d.utcTime_range
  unfold astimezone at h
  split at h
  · cases h
  · rename_i date hdate
    obtain rfl := Except.ok.inj h
    rw [UtcDatetime.instant, UtcDatetime.timeOfDay_ofTime, UtcDatetime.toDate_ofTime, instant]
    unfold utcDate at hdate
    unfold dayLength at *
    split_ifs at hdate with h₁ h₂
    · have hbefore := Date.toordinal_dayBefore hdate
      omega
    · have hafter := Date.toordinal_dayAfter hdate
      omega
    · obtain rfl := Option.some.inj hdate
      omega

/-- Whether an instant has a date in UTC does not depend on how it is written. -/
theorem AwareDatetime.inRange_iff (d : AwareDatetime) :
    d.InRange ↔ dayLength ≤ d.instant ∧ d.instant < dayLength * 3652060 := by
  constructor
  · intro h
    rcases d.astimezone_cases with ⟨-, u, hu⟩ | ⟨hout, -⟩
    · have hday := u.toordinal_range
      have htime := u.timeOfDay_range
      rw [← instant_astimezone hu, UtcDatetime.instant]
      unfold dayLength at *
      omega
    · exact absurd h hout
  · rintro ⟨hlow, hhigh⟩
    unfold instant at hlow hhigh
    constructor
    · intro hfirst
      rw [hfirst.toordinal] at hlow
      omega
    · intro hlast
      rw [hlast.toordinal] at hhigh
      unfold dayLength at *
      omega

/-- Two ways to write one instant convert to the same UTC value. -/
theorem AwareDatetime.astimezone_congr {d e : AwareDatetime} (h : d.instant = e.instant)
    {u : UtcDatetime} (hu : d.astimezone = .ok u) : e.astimezone = .ok u := by
  have hrange : e.InRange := by
    rw [inRange_iff, ← h, ← inRange_iff]
    rcases d.astimezone_cases with ⟨hd, -⟩ | ⟨-, hoverflow⟩
    · exact hd
    · rw [hu] at hoverflow
      cases hoverflow
  rcases e.astimezone_cases with ⟨-, v, hv⟩ | ⟨hout, -⟩
  · rw [hv]
    congr 1
    apply UtcDatetime.instant_injective
    rw [instant_astimezone hv, instant_astimezone hu, h]
  · exact absurd hrange hout

/-- A UTC value, with its offset of zero. -/
def UtcDatetime.aware (u : UtcDatetime) : AwareDatetime where
  toDate := u.toDate
  hour := u.hour
  minute := u.minute
  second := u.second
  microsecond := u.microsecond
  offset := 0
  offset_range := zero_offset

theorem UtcDatetime.utcTime_aware (u : UtcDatetime) : u.aware.utcTime = u.timeOfDay := Int.sub_zero _

theorem UtcDatetime.instant_aware (u : UtcDatetime) : u.aware.instant = u.instant := by
  rw [AwareDatetime.instant, utcTime_aware]
  rfl

/-- A UTC value is not changed by the conversion. -/
theorem UtcDatetime.astimezone_aware (u : UtcDatetime) : u.aware.astimezone = .ok u := by
  have hdate : u.aware.utcDate = some u.toDate := by
    have htime := u.timeOfDay_range
    rw [AwareDatetime.utcDate, utcTime_aware, if_neg (by omega), if_neg (by omega)]
    rfl
  have hu : u.aware.astimezone = .ok (ofTime u.toDate u.aware.utcTime) := by
    rw [AwareDatetime.astimezone, hdate]
  rw [hu]
  congr 1
  apply instant_injective
  rw [AwareDatetime.instant_astimezone hu, instant_aware]

end SentinelGRC.Python
