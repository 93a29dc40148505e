import SentinelGRC.Contracts.Accepted
import SentinelGRC.Python.Timeline

/-!
Timestamps that have been normalized. The text of a UTC instant is a timestamp of the
profile with the offset `Z`, and it is read back as the instant it was printed from.
-/

namespace SentinelGRC.Contracts

open Python Json

variable {F : Type}

/-! ### Digits of a fixed width -/

theorem length_padText {n w : ℕ} (hw : 0 < w) (hn : n < 10 ^ w) : (padText w n).length = w := by
  rw [padText, List.length_append, List.length_replicate]
  exact Nat.sub_add_cancel (length_natText_le hw hn)

theorem isDigit_padText {w n : ℕ} {c : CodePoint} (hc : c ∈ padText w n) : isDigit c = true := by
  rcases List.mem_append.mp hc with hc | hc
  · obtain rfl := List.eq_of_mem_replicate hc
    decide
  · exact isDigit_natText c hc

theorem ofDigits_replicate_append (n : ℕ) (t : Text) :
    ofDigits (List.replicate n (ofChar '0') ++ t) = ofDigits t := by
  induction n with
  | zero => rfl
  | succ n ih => exact ih

theorem ofDigits_padText (w n : ℕ) : ofDigits (padText w n) = n := by
  rw [padText, ofDigits_replicate_append, ofDigits_natText]

/-- A padded number is read back, and nothing behind it is. -/
theorem takeDigits_padText {n w : ℕ} (hw : 0 < w) (hn : n < 10 ^ w) (rest : Text) :
    takeDigits w (padText w n ++ rest) = some (n, rest) := by
  have hlength := length_padText hw hn
  have hdigits : (padText w n).all isDigit = true :=
    List.all_eq_true.mpr fun c hc => isDigit_padText hc
  rw [takeDigits, List.take_left' hlength, List.drop_left' hlength, ofDigits_padText,
    if_pos ⟨hlength, hdigits⟩]

theorem takeChar_cons (c : Char) (t : Text) : takeChar c (ofChar c :: t) = some t := by
  rw [takeChar, List.head?_cons, if_pos rfl, List.tail_cons]

/-! ### Texts of UTC instants -/

/-- The digits of the fraction. -/
def fractionDigits (u : UtcDatetime) : Text := u.fraction.tail

theorem microsecond_lt (u : UtcDatetime) : u.microsecond.val < 10 ^ 6 := u.microsecond.isLt

theorem takeFraction_fraction (u : UtcDatetime) :
    takeFraction (u.fraction ++ lit "Z") = some (fractionDigits u, lit "Z") := by
  unfold fractionDigits UtcDatetime.fraction
  split_ifs with h
  · rfl
  · have hlength := length_padText (by decide) (microsecond_lt u)
    have hdigits : ∀ c ∈ padText 6 u.microsecond.val, isDigit c = true := fun c => isDigit_padText
    rw [List.cons_append, takeFraction, takeChar_cons]
    simp only [List.tail_cons]
    rw [List.takeWhile_append_of_pos hdigits, List.dropWhile_append_of_pos hdigits]
    have hend : (lit "Z").takeWhile isDigit = [] ∧ (lit "Z").dropWhile isDigit = lit "Z" := by decide
    rw [hend.1, hend.2, List.append_nil, if_pos (by omega)]

theorem ofDigits_fractionDigits (u : UtcDatetime) :
    ofDigits (fractionDigits u ++ List.replicate (6 - (fractionDigits u).length) (ofChar '0')) =
      u.microsecond.val := by
  unfold fractionDigits UtcDatetime.fraction
  split_ifs with h
  · rw [h]
    decide
  · rw [List.tail_cons, length_padText (by decide) (microsecond_lt u), Nat.sub_self,
      List.replicate_zero, List.append_nil, ofDigits_padText]

/-- The match of the text of a UTC instant. -/
def utcMatch (u : UtcDatetime) : Rfc3339 :=
  ⟨u.year, u.month, u.day, u.hour.val, u.minute.val, u.second.val, fractionDigits u, none⟩

/-- The numbers of a UTC instant fit the widths of their fields. -/
structure FitsWidths (u : UtcDatetime) : Prop where
  year : u.year < 10 ^ 4
  month : u.month < 10 ^ 2
  day : u.day < 10 ^ 2
  hour : u.hour.val < 10 ^ 2
  minute : u.minute.val < 10 ^ 2
  second : u.second.val < 10 ^ 2

theorem fitsWidths (u : UtcDatetime) : FitsWidths u where
  year := Nat.lt_succ_of_le u.year_range.2
  month := u.month_range.2.trans_lt (by decide)
  day := by
    have hday := u.day_range.2
    unfold daysInMonth at hday
    split_ifs at hday <;> omega
  hour := u.hour.isLt.trans (by decide)
  minute := u.minute.isLt.trans (by decide)
  second := u.second.isLt.trans (by decide)

theorem isoformatZ_eq (u : UtcDatetime) :
    u.isoformatZ = padText 4 u.year ++ (ofChar '-' :: (padText 2 u.month ++
      (ofChar '-' :: (padText 2 u.day ++ (ofChar 'T' :: (padText 2 u.hour.val ++
        (ofChar ':' :: (padText 2 u.minute.val ++ (ofChar ':' :: (padText 2 u.second.val ++
          (u.fraction ++ lit "Z"))))))))))) := by
  simp only [UtcDatetime.isoformatZ, lit, String.toList, List.append_assoc]
  rfl

theorem rfc3339_isoformatZ (u : UtcDatetime) : rfc3339 u.isoformatZ = some (utcMatch u) := by
  have hfits := fitsWidths u
  have htwo : 0 < 2 := by decide
  rw [isoformatZ_eq, rfc3339, takeDigits_padText (by decide) hfits.year]
  simp only [Option.bind_eq_bind, Option.bind_some, takeChar_cons,
    takeDigits_padText htwo hfits.month, takeDigits_padText htwo hfits.day,
    takeDigits_padText htwo hfits.hour, takeDigits_padText htwo hfits.minute,
    takeDigits_padText htwo hfits.second, takeFraction_fraction]
  rfl

theorem utcOffset_utcMatch (u : UtcDatetime) : (utcMatch u).utcOffset = 0 := rfl

theorem datetime_utcMatch (u : UtcDatetime) : (utcMatch u).datetime = some u.aware := by
  have hfraction := ofDigits_fractionDigits u
  have hoffset : -dayLength < (utcMatch u).utcOffset ∧ (utcMatch u).utcOffset < dayLength := by
    rw [utcOffset_utcMatch]
    decide
  unfold Rfc3339.datetime
  simp only [utcMatch, hfraction]
  rw [dif_pos]
  · rfl
  · exact ⟨u.year_range, u.month_range, u.day_range, u.hour.isLt, u.minute.isLt, u.second.isLt,
      u.microsecond.isLt, hoffset⟩

/-- `NORMALIZED_RFC3339_PATTERN`, with ASCII digits. -/
def normalizedRfc3339 (t : Text) : Bool := (rfc3339 t).any fun m => m.offset.isNone

theorem normalizedRfc3339_isoformatZ (u : UtcDatetime) : normalizedRfc3339 u.isoformatZ = true := by
  rw [normalizedRfc3339, rfc3339_isoformatZ]
  rfl

theorem length_fraction_le (u : UtcDatetime) : u.fraction.length ≤ 7 := by
  unfold UtcDatetime.fraction
  split_ifs
  · exact Nat.zero_le 7
  · rw [List.length_cons, length_padText (by decide) (microsecond_lt u)]

/-- The characters of a timestamp are neither excluded nor white space. -/
theorem isEvidenceText_of_isStampChar {c : CodePoint} (h : isStampChar c = true) :
    isEvidenceText c = true ∧ isExcluded c = false := by
  have hspace : isSpace c = false := by
    rw [Bool.eq_false_iff]
    intro hs
    simp only [isStampChar, isSpace, Bool.and_eq_true, Bool.or_eq_true, decide_eq_true_eq,
      beq_iff_eq] at h hs
    omega
  have hexcluded : isExcluded c = false := by
    rw [Bool.eq_false_iff]
    intro hs
    simp only [isStampChar, isExcluded, Bool.and_eq_true, Bool.or_eq_true, decide_eq_true_eq,
      beq_iff_eq] at h hs
    omega
  rw [isEvidenceText, hspace, hexcluded]
  exact ⟨rfl, rfl⟩

theorem canonicalText_of_isStampChar {t : Text} (ht : t ≠ [])
    (h : t.all isStampChar = true) : canonicalText t = true := by
  have hall := List.all_eq_true.mp h
  have hhead := (isEvidenceText_of_isStampChar (hall _ (List.head_mem ht))).1
  have hlast := (isEvidenceText_of_isStampChar (hall _ (List.getLast_mem ht))).1
  rw [canonicalText, List.head?_eq_some_head ht, List.getLast?_eq_some_getLast ht]
  simp only [Option.any_some, hhead, hlast, Bool.true_and, List.all_eq_true, Bool.not_eq_eq_eq_not,
    Bool.not_true]
  exact fun c hc => (isEvidenceText_of_isStampChar (hall c hc)).2

theorem isCanonicalText_isoformatZ (u : UtcDatetime) :
    isCanonicalText (.str u.isoformatZ : Json F) 64 = true := by
  have hfits := fitsWidths u
  have htwo : 0 < 2 := by decide
  have hfraction := length_fraction_le u
  have hz : (lit "Z").length = 1 := by decide
  have hlength : u.isoformatZ.length = 20 + u.fraction.length := by
    rw [isoformatZ_eq]
    simp only [List.length_append, List.length_cons, length_padText (show 0 < 4 by decide) hfits.year,
      length_padText htwo hfits.month, length_padText htwo hfits.day, length_padText htwo hfits.hour,
      length_padText htwo hfits.minute, length_padText htwo hfits.second, hz]
    omega
  have hnonempty : u.isoformatZ ≠ [] := List.ne_nil_of_length_pos (by omega)
  simp only [isCanonicalText, canonicalText_of_isStampChar hnonempty (all_isoformatZ u),
    Bool.and_true, Bool.and_eq_true, decide_eq_true_eq]
  omega

/-! ### Timestamp fields -/

theorem instant_eq_ok {payload : Fields F} {name label : Text} {d : AwareDatetime} :
    instant payload name label = .ok d ↔ ∃ t, get payload name = .str t ∧
      isCanonicalText (.str t : Json F) 64 = true ∧ (rfc3339 t).bind Rfc3339.datetime = some d := by
  unfold instant
  rw [bind_eq_ok]
  refine exists_congr fun t => ?_
  rw [text_eq_ok, and_assoc]
  refine and_congr_right fun _ => and_congr_right fun _ => ?_
  cases h : (rfc3339 t).bind Rfc3339.datetime with
  | none => simp [parseRfc3339, h]
  | some parsed => simp [parseRfc3339, h]

/-- The text of a UTC instant names that instant. -/
theorem instant_isoformatZ {payload : Fields F} {name : Text} (label : Text) {u : UtcDatetime}
    (h : get payload name = .str u.isoformatZ) : instant payload name label = .ok u.aware := by
  refine instant_eq_ok.mpr ⟨_, h, isCanonicalText_isoformatZ u, ?_⟩
  rw [rfc3339_isoformatZ, Option.bind_some, datetime_utcMatch]

theorem timestamp_isoformatZ {payload : Fields F} {name : Text} (label : Text) {u : UtcDatetime}
    (h : get payload name = .str u.isoformatZ) : timestamp payload name label = .ok u :=
  bind_eq_ok.mpr ⟨u.aware, instant_isoformatZ label h, u.astimezone_aware⟩

end SentinelGRC.Contracts
