import Intake.Instant.Reader
import Intake.Proofs.Collect

/-!
# Calendar — instants read back from their text

A day has one date, and the date counts back to the day.  The text of an instant writes the fields
of the date and of the time of day in digits that the reader takes one by one, so the instant comes
back to the nanosecond, also before the year 0, after the year 9999 and in leap seconds.
-/

namespace Intake.Instant

/-! ## 1. Years and months

Years start in March here, so that a leap day is the last day of its year.  An era has 400 years. -/

section

variable {day year : Nat}

/-- The year that a day of an era falls in, as the calendar computes it. -/
theorem year_lt (hday : day < 146097)
    (hyear : year = (day - day / 1460 + day / 36524 - day / 146096) / 365) : year < 400 := by
  omega

theorem century_eq (hday : day < 146097)
    (hyear : year = (day - day / 1460 + day / 36524 - day / 146096) / 365) :
    year / 100 = day / 36524 - day / 146096 := by
  have hcentury : day / 36524 = 0 ∨ day / 36524 = 1 ∨ day / 36524 = 2 ∨ day / 36524 = 3 ∨
      day / 36524 = 4 := by
    omega
  -- in each century the terms are constants
  rcases hcentury with h | h | h | h | h <;> omega

/-- **The day lies in its year:** not before its first day, and at most 365 days after it. -/
theorem day_within_year (hday : day < 146097)
    (hyear : year = (day - day / 1460 + day / 36524 - day / 146096) / 365) :
    365 * year + year / 4 - year / 100 ≤ day ∧
      day ≤ 365 * year + year / 4 - year / 100 + 365 := by
  have hlt := year_lt hday hyear
  have hcentury := century_eq hday hyear
  omega

/-- Only years that end in a February of 29 days have a 366th day. -/
theorem leap_of_last_day (hday : day < 146097)
    (hyear : year = (day - day / 1460 + day / 36524 - day / 146096) / 365)
    (hlast : day = 365 * year + year / 4 - year / 100 + 365) :
    (year + 1) % 4 = 0 ∧ ((year + 1) % 100 ≠ 0 ∨ (year + 1) % 400 = 0) := by
  have hlt := year_lt hday hyear
  have hcentury := century_eq hday hyear
  have hfour : (year + 1) % 4 = 0 := by
    apply Classical.byContradiction
    intro hnot
    have hrest : year % 4 ≤ 2 := by omega
    have hsplit : day = 1461 * (year / 4) + 365 * (year % 4) + 365 - year / 100 := by omega
    have hcycle : day / 1460 = year / 4 := by
      have hfew : year / 4 < 100 := by omega
      have hfewer : year / 100 ≤ 3 := by omega
      clear hyear hcentury hlast
      omega
    -- so the formula gives the next year
    omega
  refine ⟨hfour, ?_⟩
  by_cases hhundred : (year + 1) % 100 = 0
  · right
    have hends : year = 99 ∨ year = 199 ∨ year = 299 ∨ year = 399 := by omega
    rcases hends with rfl | rfl | rfl | rfl <;> omega
  · left
    exact hhundred

end

def monthOfYear (day : Nat) : Nat := (5 * day + 2) / 153

def daysBeforeMonth (month : Nat) : Nat := (153 * month + 2) / 5

def lengthFromMarch (leap : Bool) (month : Nat) : Nat :=
  if month = 11 then (if leap then 29 else 28)
  else if month ∈ [1, 3, 6, 8] then 30 else 31

/-- **The day lies in its month.**  Only the last month, February, depends on the year. -/
theorem day_within_month {day : Nat} {leap : Bool} (h : day < 365 ∨ day = 365 ∧ leap = true) :
    monthOfYear day ≤ 11 ∧ daysBeforeMonth (monthOfYear day) ≤ day ∧
      day < daysBeforeMonth (monthOfYear day) + lengthFromMarch leap (monthOfYear day) := by
  have hall : ∀ (leap : Bool) (d : Fin 365), monthOfYear d.val ≤ 11 ∧
      daysBeforeMonth (monthOfYear d.val) ≤ d.val ∧
      d.val < daysBeforeMonth (monthOfYear d.val) +
        lengthFromMarch leap (monthOfYear d.val) := by
    decide +kernel
  rcases h with h | ⟨rfl, rfl⟩
  · exact hall leap ⟨day, h⟩
  · decide

def monthFromMarch (month : Nat) : Nat := if month < 10 then month + 3 else month - 9

theorem monthFromMarch_cases {month : Nat} (h : month ≤ 11) :
    2 < monthFromMarch month ∧ monthFromMarch month ≤ 12 ∧ monthFromMarch month - 3 = month ∨
      1 ≤ monthFromMarch month ∧ monthFromMarch month ≤ 2 ∧
        monthFromMarch month + 9 = month := by
  unfold monthFromMarch
  split <;> omega

theorem monthLength_monthFromMarch (year : Int) {month : Nat} (h : month ≤ 11) :
    monthLength year (monthFromMarch month) = lengthFromMarch (isLeap year) month := by
  have hall : ∀ m : Fin 12,
      (monthFromMarch m.val = 2 ↔ m.val = 11) ∧
        ((monthFromMarch m.val = 4 ∨ monthFromMarch m.val = 6 ∨ monthFromMarch m.val = 9 ∨
          monthFromMarch m.val = 11) ↔ m.val ∈ [1, 3, 6, 8]) := by
    decide
  obtain ⟨hfebruary, hshort⟩ := hall ⟨month, Nat.lt_succ_of_le h⟩
  unfold monthLength lengthFromMarch
  simp only [hfebruary, hshort]

/-! ## 2. Dates -/

def dateIn (era : Int) (year day : Nat) : Int × Nat × Nat :=
  let month := monthFromMarch (monthOfYear day)
  (Int.ofNat year + era * 400 + (if month ≤ 2 then 1 else 0), month,
    day - daysBeforeMonth (monthOfYear day) + 1)

/-- **A day of an era:** the year is one of 400, and only a leap day is the 366th of its year. -/
structure IsDay (year day : Nat) : Prop where
  year_lt : year < 400
  day_le : day ≤ 365
  leap : day = 365 → (year + 1) % 4 = 0 ∧ ((year + 1) % 100 ≠ 0 ∨ (year + 1) % 400 = 0)

/-- **Every day lies in an era, a year and a month.** -/
theorem exists_isDay (days : Int) :
    ∃ era year day, IsDay year day ∧ dateOfDays days = dateIn era year day ∧
      days = era * 146097 + ((365 * year + year / 4 - year / 100 + day : Nat) : Int) - 719468 := by
  let era := (days + 719468).fdiv 146097
  have hera : era = (days + 719468) / 146097 := Int.fdiv_eq_ediv_of_nonneg _ (by decide)
  let inEra := (days + 719468 - era * 146097).toNat
  have hin : (inEra : Int) = days + 719468 - era * 146097 := Int.toNat_of_nonneg (by omega)
  have hlt : inEra < 146097 := by omega
  let year := (inEra - inEra / 1460 + inEra / 36524 - inEra / 146096) / 365
  have hyear : year = (inEra - inEra / 1460 + inEra / 36524 - inEra / 146096) / 365 := rfl
  obtain ⟨hfrom, hto⟩ := day_within_year hlt hyear
  refine ⟨era, year, inEra - (365 * year + year / 4 - year / 100), ⟨?_, ?_, ?_⟩, rfl, ?_⟩
  · exact year_lt hlt rfl
  · omega
  · intro hlast
    exact leap_of_last_day hlt rfl (by omega)
  · omega

/-- The year of a leap day is a leap year. -/
theorem isLeap_of_isDay {era : Int} {year : Nat} (h : IsDay year 365) :
    isLeap (Int.ofNat year + era * 400 + 1) = true := by
  obtain ⟨hfour, hhundred⟩ := h.leap rfl
  unfold isLeap
  rw [Int.fmod_eq_emod_of_nonneg _ (by decide), Int.fmod_eq_emod_of_nonneg _ (by decide),
    Int.fmod_eq_emod_of_nonneg _ (by decide)]
  simp only [Bool.and_eq_true, Bool.or_eq_true, beq_iff_eq, bne_iff_ne, Int.ofNat_eq_natCast]
  omega

/-- **The date of a day** is one of the calendar and counts back to the day. -/
theorem daysOfDate_dateIn {era : Int} {year day : Nat} (h : IsDay year day)
    {y : Int} {m d : Nat} (hdate : dateIn era year day = (y, m, d)) :
    daysOfDate y m d =
        era * 146097 + ((365 * year + year / 4 - year / 100 + day : Nat) : Int) - 719468 ∧
      (1 ≤ m ∧ m ≤ 12) ∧ 1 ≤ d ∧ d ≤ monthLength y m := by
  have hlt := h.year_lt
  obtain ⟨rfl, rfl, rfl⟩ := hdate
  have hlast : day < 365 ∨ day = 365 ∧ isLeap (Int.ofNat year + era * 400 + 1) = true := by
    by_cases hday : day = 365
    · subst hday
      exact .inr ⟨rfl, isLeap_of_isDay h⟩
    · have hle := h.day_le
      exact .inl (by omega)
  obtain ⟨hmonth, hfrom, hto⟩ := day_within_month hlast
  have hcases := monthFromMarch_cases hmonth
  refine ⟨?_, ?_, Nat.succ_pos _, ?_⟩
  -- January and February carry into the next year, and the count takes that back
  · have hyear : ∀ carry : Int,
        carry = (if monthFromMarch (monthOfYear day) ≤ 2 then 1 else 0) →
        (if monthFromMarch (monthOfYear day) ≤ 2 then Int.ofNat year + era * 400 + carry - 1
          else Int.ofNat year + era * 400 + carry) = year + era * 400 := by
      rintro _ rfl
      split <;> simp
    have hshift : (if monthFromMarch (monthOfYear day) > 2 then
          monthFromMarch (monthOfYear day) - 3
        else monthFromMarch (monthOfYear day) + 9) = monthOfYear day := by
      split <;> omega
    unfold daysOfDate
    simp only [hshift, hyear _ rfl]
    rw [Int.fdiv_eq_ediv_of_nonneg _ (by decide), Int.fdiv_eq_ediv_of_nonneg _ (by decide),
      Int.fdiv_eq_ediv_of_nonneg _ (by decide)]
    unfold daysBeforeMonth at *
    omega
  · omega
  · rw [monthLength_monthFromMarch _ hmonth]
    by_cases hfebruary : monthOfYear day = 11
    · have hcarry : monthFromMarch (monthOfYear day) ≤ 2 := by omega
      rw [if_pos hcarry]
      omega
    · -- the other months are as long in every year
      unfold lengthFromMarch at hto ⊢
      rw [if_neg hfebruary] at hto ⊢
      omega

/-- January and February belong to the year before, when years start in March. -/
theorem monthFromMarch_le_two {day : Nat} (h : day ≤ 365) :
    monthFromMarch (monthOfYear day) ≤ 2 ↔ 306 ≤ day := by
  unfold monthFromMarch monthOfYear
  split <;> omega

/-- **The calendar covers the years** of dated instants, from the first second to the last. -/
theorem year_of_isDated {t : Instant} (h : t.isDated = true) {y : Int} {m d : Nat}
    (hdate : dateOfDays (t.seconds.fdiv 86400) = (y, m, d)) : -262143 ≤ y ∧ y ≤ 262142 := by
  obtain ⟨era, year, day, hday, hdateIn, hdays⟩ := exists_isDay (t.seconds.fdiv 86400)
  have hlt := hday.year_lt
  have hle := hday.day_le
  rw [hdateIn] at hdate
  obtain ⟨rfl, rfl, rfl⟩ := hdate
  have hcarry := monthFromMarch_le_two hle
  obtain ⟨hlow, hhigh⟩ : firstSecond ≤ t.seconds ∧ t.seconds ≤ lastSecond := by
    simpa only [isDated, Bool.and_eq_true, decide_eq_true_eq] using h
  rw [show firstSecond = -96465292 * 86400 by decide] at hlow
  rw [show lastSecond = 95026236 * 86400 + 86399 by decide] at hhigh
  rw [Int.fdiv_eq_ediv_of_nonneg _ (by decide)] at hdays
  have hfirst : -96465292 ≤ t.seconds / 86400 := by omega
  have hlast : t.seconds / 86400 ≤ 95026236 := by omega
  rw [hdays] at hfirst hlast
  clear hdays hlow hhigh h hdateIn hday
  simp only [Int.ofNat_eq_natCast, hcarry]
  -- only in the first and the last era the year matters
  have hera : era = -656 ∨ era = 655 ∨ (-656 < era ∧ era < 655) := by omega
  by_cases hwinter : 306 ≤ day
  · rw [if_pos hwinter]
    rcases hera with rfl | rfl | hera <;> omega
  · rw [if_neg hwinter]
    rcases hera with rfl | rfl | hera <;> omega

/-! ## 3. Digits -/

theorem isDigit_of_mem_padded {width n : Nat} {c : Char} (h : c ∈ padded width n) :
    c.isDigit = true := by
  rcases List.mem_append.1 h with h | h
  · rw [List.eq_of_mem_replicate h]
    rfl
  · exact Nat.isDigit_of_mem_toDigits (by decide) (by decide) h

/-- Zeros in front change no number. -/
@[simp] theorem ofDigitChars_padded (width n : Nat) :
    Nat.ofDigitChars 10 (padded width n) 0 = n := by
  unfold padded
  rw [Nat.ofDigitChars_append, Nat.ofDigitChars_replicate_zero, Nat.mul_zero,
    Nat.ofDigitChars_ten_toDigits]

theorem length_padded {width n : Nat} (hwidth : 0 < width) (h : n < Nat.pow 10 width) :
    (padded width n).length = width := by
  have hle := (Nat.length_toDigits_le_iff (by decide) hwidth).2 h
  unfold padded
  rw [List.length_append, List.length_replicate]
  omega

theorem padded_ne_nil (width n : Nat) : padded width n ≠ [] := by
  unfold padded
  simp [Nat.toDigits_ne_nil]

theorem isBlank_of_isDigit {c : Char} (h : c.isDigit = true) : Text.isBlank c = false := by
  obtain ⟨hlow, hhigh⟩ := Char.isDigit_iff_toNat.1 h
  rw [show '0'.toNat = 48 from rfl] at hlow
  rw [show '9'.toNat = 57 from rfl] at hhigh
  unfold Text.isBlank
  simp only [Bool.or_eq_false_iff, Bool.and_eq_false_iff, decide_eq_false_iff_not,
    beq_eq_false_iff_ne]
  omega

/-- Padded digits start with a digit. -/
theorem isDigit_of_padded_eq {width n : Nat} {c : Char} {rest cs : List Char}
    (h : padded width n ++ rest = c :: cs) : c.isDigit = true := by
  cases hdigits : padded width n with
  | nil => exact absurd hdigits (padded_ne_nil width n)
  | cons d digits =>
    rw [hdigits] at h
    rw [← (List.cons.inj h).1]
    exact isDigit_of_mem_padded (hdigits ▸ List.mem_cons_self)

theorem trimStart_padded (width n : Nat) (rest : List Char) :
    Text.trimStart (padded width n ++ rest) = padded width n ++ rest := by
  unfold Text.trimStart
  cases hdigits : padded width n ++ rest with
  | nil => rfl
  | cons d digits =>
    rw [List.dropWhile_cons_of_neg]
    rw [isBlank_of_isDigit (isDigit_of_padded_eq hdigits)]
    decide

/-- **A field of fixed width reads back,** whatever stands behind it. -/
theorem readNumber_padded {width n : Nat} (hwidth : 0 < width) (h : n < Nat.pow 10 width)
    (rest : List Char) : readNumber width (padded width n ++ rest) = some (n, rest) := by
  have htake : takeDigits width (padded width n ++ rest) = padded width n := by
    have hall : (padded width n ++ []).takeWhile Char.isDigit = padded width n ++ [] :=
      List.takeWhile_append_of_pos fun _ hc => isDigit_of_mem_padded hc
    unfold takeDigits
    rw [List.take_left' (length_padded hwidth h)]
    simpa only [List.append_nil] using hall
  unfold readNumber
  simp only [trimStart_padded, htake]
  split
  next hnil => exact absurd hnil (padded_ne_nil width n)
  next digits _ =>
    rw [ofDigitChars_padded, List.drop_left]

/-- Digits of any number read back, up to what is no digit. -/
theorem takeWhile_padded (width n : Nat) {c : Char} (hc : c.isDigit = false) (rest : List Char) :
    (padded width n ++ c :: rest).takeWhile Char.isDigit = padded width n := by
  apply Text.takeWhile_run fun _ hd => isDigit_of_mem_padded hd
  rintro _ ⟨⟩
  exact hc

/-! ## 4. Fields -/

theorem expect_cons {c : Char} (hc : Text.isBlank c = false) (rest : List Char) :
    expect c (c :: rest) = some rest := by
  unfold expect Text.trimStart
  rw [List.dropWhile_cons_of_neg (by rw [hc]; decide)]
  simp

theorem readSigned_padded (width n : Nat) {c : Char} (hc : c.isDigit = false) (rest : List Char) :
    readYear.readSigned (padded width n ++ c :: rest) = some (n, c :: rest) := by
  unfold readYear.readSigned
  rw [takeWhile_padded width n hc]
  split
  next hnil => exact absurd hnil (padded_ne_nil width n)
  next => rw [ofDigitChars_padded, List.drop_left]

/-- **A year reads back,** whatever its sign and however many digits it has. -/
theorem readYear_yearText (year : Int) (rest : List Char) :
    readYear (yearText year ++ '-' :: rest) = some (year, '-' :: rest) := by
  unfold yearText
  by_cases hshort : 0 ≤ year ∧ year ≤ 9999
  · rw [if_pos hshort]
    have hfits : year.toNat < 10000 := by omega
    have hread : readNumber 4 (padded 4 year.toNat ++ '-' :: rest) =
        some (year.toNat, '-' :: rest) := readNumber_padded (by decide) hfits _
    unfold readYear
    rw [trimStart_padded]
    split
    next h => exact absurd (isDigit_of_padded_eq h) (by decide)
    next h => exact absurd (isDigit_of_padded_eq h) (by decide)
    next =>
      rw [hread]
      simp only [Option.map_some, Option.some.injEq, Prod.mk.injEq, and_true]
      exact Int.toNat_of_nonneg hshort.1
  · rw [if_neg hshort]
    by_cases hnegative : year < 0
    · rw [if_pos hnegative]
      change (readYear.readSigned (padded 4 (-year).toNat ++ '-' :: rest)).map _ = _
      rw [readSigned_padded _ _ (by decide)]
      simp only [Option.map_some, Option.some.injEq, Prod.mk.injEq, and_true]
      omega
    · rw [if_neg hnegative]
      change (readYear.readSigned (padded 4 year.toNat ++ '-' :: rest)).map _ = _
      rw [readSigned_padded _ _ (by decide)]
      simp only [Option.map_some, Option.some.injEq, Prod.mk.injEq, and_true]
      omega

theorem readFraction_dot {width n nanos : Nat} (hwidth : 0 < width) (hnine : width ≤ 9)
    (h : n < Nat.pow 10 width) (hnanos : n * Nat.pow 10 (9 - width) = nanos) {c : Char}
    (hc : c.isDigit = false) (rest : List Char) :
    readFraction ('.' :: padded width n ++ c :: rest) = some (nanos, c :: rest) := by
  have hlength := length_padded hwidth h
  rw [List.cons_append]
  unfold readFraction
  simp only [takeWhile_padded width n hc]
  split
  next hnil => exact absurd hnil (padded_ne_nil width n)
  next =>
    rw [List.take_of_length_le (by omega), ofDigitChars_padded, List.drop_left, hlength, ← hnanos]

/-- **A fraction reads back,** in as few digits as it is written. -/
theorem readFraction_fractionText {nanos : Nat} (h : nanos < 1000000000) (rest : List Char) :
    readFraction (fractionText nanos ++ 'Z' :: rest) = some (nanos, 'Z' :: rest) := by
  unfold fractionText
  by_cases hnone : nanos = 0
  · rw [if_pos hnone, hnone]
    rfl
  rw [if_neg hnone]
  by_cases hmillis : nanos % 1000000 = 0
  · rw [if_pos hmillis]
    have hfits : nanos / 1000000 < 1000 := by omega
    have hback : nanos / 1000000 * 1000000 = nanos := by omega
    exact readFraction_dot (by decide) (by decide) hfits hback rfl rest
  rw [if_neg hmillis]
  by_cases hmicros : nanos % 1000 = 0
  · rw [if_pos hmicros]
    have hfits : nanos / 1000 < 1000000 := by omega
    have hback : nanos / 1000 * 1000 = nanos := by omega
    exact readFraction_dot (by decide) (by decide) hfits hback rfl rest
  rw [if_neg hmicros]
  exact readFraction_dot (by decide) (by decide) h (Nat.mul_one _) rfl rest

/-! ## 5. Instants -/

/-- **What a clock can tell:** dated instants.  A second that does not end a minute has no leap
    second behind it. -/
structure IsTime (t : Instant) : Prop where
  dated : t.isDated = true
  nanos : t.nanos < 1000000000 ∨ t.nanos < 2000000000 ∧ t.seconds % 60 = 59

theorem monthLength_le (year : Int) (month : Nat) : monthLength year month ≤ 31 := by
  unfold monthLength
  repeat' split
  all_goals decide

def secondOfDay (t : Instant) : Nat := (t.seconds - t.seconds.fdiv 86400 * 86400).toNat

def leap (t : Instant) : Nat := if t.nanos ≥ 1000000000 then 1 else 0

def fraction (t : Instant) : Nat := t.nanos - t.leap * 1000000000

theorem toList_text {t : Instant} {year : Int} {month day : Nat}
    (hdate : dateOfDays (t.seconds.fdiv 86400) = (year, month, day)) :
    t.text.toList = yearText year ++ '-' :: (padded 2 month ++ '-' :: (padded 2 day ++
      'T' :: (padded 2 (t.secondOfDay / 3600) ++ ':' :: (padded 2 (t.secondOfDay / 60 % 60) ++
        ':' :: (padded 2 (t.secondOfDay % 60 + t.leap) ++
          (fractionText t.fraction ++ 'Z' :: [])))))) := by
  unfold text fraction secondOfDay leap
  simp only [hdate, String.toList_ofList, List.append_assoc, List.cons_append]

theorem secondOfDay_eq (t : Instant) :
    (t.secondOfDay : Int) = t.seconds - t.seconds.fdiv 86400 * 86400 ∧ t.secondOfDay < 86400 := by
  unfold secondOfDay
  rw [Int.fdiv_eq_ediv_of_nonneg _ (by decide)]
  omega

/-- A leap second is written as the 60th of its minute. -/
theorem IsTime.leap_cases {t : Instant} (h : t.IsTime) :
    t.fraction < 1000000000 ∧ (t.leap = 0 ∧ t.nanos = t.fraction ∨
      t.leap = 1 ∧ t.nanos = t.fraction + 1000000000 ∧ t.secondOfDay % 60 = 59) := by
  obtain ⟨hsecond, -⟩ := t.secondOfDay_eq
  rw [Int.fdiv_eq_ediv_of_nonneg _ (by decide)] at hsecond
  have hnanos := h.nanos
  unfold fraction leap
  split <;> omega

def ofFields (year : Int) (month day hour minute second nanos : Nat) (offset : Int)
    (cs : List Char) : Option Instant :=
  let leap := if second = 60 then 1 else 0
  let ofDay : Nat := hour * 3600 + minute * 60 + second - leap
  let t : Instant :=
    ⟨daysOfDate year month day * 86400 + ofDay - offset, nanos + leap * 1000000000⟩
  if !(Text.trimStart cs).isEmpty then none
  else if month = 0 ∨ month > 12 ∨ day = 0 ∨ day > monthLength year month then none
  else if hour > 23 ∨ minute > 59 ∨ second > 60 then none
  else if year < -262143 ∨ year > 262142 ∨ !t.isDated then none
  else some t

theorem ofFields_eq_some {t : Instant} {year : Int} {month day hour minute second nanos : Nat}
    (hdate : 1 ≤ month ∧ month ≤ 12 ∧ 1 ≤ day ∧ day ≤ monthLength year month)
    (htime : hour ≤ 23 ∧ minute ≤ 59 ∧ second ≤ 60)
    (hcovered : -262143 ≤ year ∧ year ≤ 262142 ∧ t.isDated = true)
    (ht : t = ⟨daysOfDate year month day * 86400 +
        ((hour * 3600 + minute * 60 + second - (if second = 60 then 1 else 0) : Nat) : Int),
      nanos + (if second = 60 then 1 else 0) * 1000000000⟩) :
    ofFields year month day hour minute second nanos 0 [] = some t := by
  have hend : ¬(!(Text.trimStart []).isEmpty) = true := by decide
  have hdate' : ¬(month = 0 ∨ month > 12 ∨ day = 0 ∨ day > monthLength year month) := by omega
  have htime' : ¬(hour > 23 ∨ minute > 59 ∨ second > 60) := by omega
  have hcovered' : ¬(year < -262143 ∨ year > 262142 ∨ (!t.isDated) = true) := by
    rw [hcovered.2.2]
    simp only [Bool.not_true, Bool.false_eq_true, or_false]
    omega
  unfold ofFields
  dsimp only
  rw [Int.sub_zero, ← ht, if_neg hend, if_neg hdate', if_neg htime', if_neg hcovered']

/-- The fields are read first, and looked at when all are there. -/
theorem parse?_eq (text : String) :
    parse? text = (do
      let (year, cs) ← readYear text.toList
      let cs ← expect '-' cs
      let (month, cs) ← readNumber 2 cs
      let cs ← expect '-' cs
      let (day, cs) ← readNumber 2 cs
      let cs ← match cs with
        | c :: rest => if c = 'T' ∨ c = 't' ∨ c = ' ' then some rest else none
        | [] => none
      let (hour, cs) ← readNumber 2 cs
      let cs ← expect ':' cs
      let (minute, cs) ← readNumber 2 cs
      let cs ← expect ':' cs
      let (second, cs) ← readNumber 2 cs
      let (nanos, cs) ← readFraction cs
      let (offset, cs) ← readOffset (Text.trimStart cs)
      ofFields year month day hour minute second nanos offset cs) := rfl

/-- Reading field by field, in universal time. -/
theorem parse?_of_fields {text : String} {year : Int}
    {month day hour minute second nanos : Nat} {a b c d e f g h i j k l : List Char}
    (ha : text.toList = a) (hyear : readYear a = some (year, b)) (hb : expect '-' b = some c)
    (hmonth : readNumber 2 c = some (month, d)) (hd : expect '-' d = some e)
    (hday : readNumber 2 e = some (day, 'T' :: f)) (hhour : readNumber 2 f = some (hour, g))
    (hg : expect ':' g = some h) (hminute : readNumber 2 h = some (minute, i))
    (hi : expect ':' i = some j) (hsecond : readNumber 2 j = some (second, k))
    (hnanos : readFraction k = some (nanos, l))
    (hl : readOffset (Text.trimStart l) = some (0, [])) :
    parse? text = ofFields year month day hour minute second nanos 0 [] := by
  have hnext : ∀ {α β : Type} {x : Option α} {a : α}, x = some a → ∀ read : α → Option β,
      (x >>= read) = read a := by
    rintro α β _ a rfl read
    rfl
  have hmark : 'T' = 'T' ∨ 'T' = 't' ∨ 'T' = ' ' := .inl rfl
  rw [parse?_eq, ha]
  refine (hnext hyear _).trans ?_
  refine (hnext hb _).trans ?_
  refine (hnext hmonth _).trans ?_
  refine (hnext hd _).trans ?_
  refine (hnext hday _).trans ?_
  refine (if_pos hmark).trans ?_
  refine (hnext hhour _).trans ?_
  refine (hnext hg _).trans ?_
  refine (hnext hminute _).trans ?_
  refine (hnext hi _).trans ?_
  refine (hnext hsecond _).trans ?_
  refine (hnext hnanos _).trans ?_
  exact hnext hl _

/-- **Instants read back** from their text. -/
theorem parse?_text {t : Instant} (h : t.IsTime) : parse? t.text = some t := by
  cases hdate : dateOfDays (t.seconds.fdiv 86400) with | mk year rest
  obtain ⟨month, day⟩ := rest
  obtain ⟨era, yearOfEra, dayOfYear, hday, hdateIn, hdays⟩ := exists_isDay (t.seconds.fdiv 86400)
  obtain ⟨hback, hmonth, hfirst, hlength⟩ := daysOfDate_dateIn hday (hdateIn.symm.trans hdate)
  rw [← hdays] at hback
  have hyear := year_of_isDated h.dated hdate
  have hshort := monthLength_le year month
  obtain ⟨hsecond, hwithin⟩ := t.secondOfDay_eq
  obtain ⟨hbound, hleap⟩ := h.leap_cases
  have hfield : ∀ {n : Nat}, n < 100 → ∀ rest, readNumber 2 (padded 2 n ++ rest) = some (n, rest) :=
    fun hn => readNumber_padded (by decide) hn
  -- the 60th second is the leap second
  have hcarry : (if t.secondOfDay % 60 + t.leap = 60 then 1 else 0) = t.leap := by
    split <;> omega
  have hread := parse?_of_fields (toList_text hdate) (readYear_yearText year _)
    (expect_cons (by decide) _) (hfield (by omega) _) (expect_cons (by decide) _)
    (hfield (by omega) _) (hfield (by omega) _) (expect_cons (by decide) _)
    (hfield (by omega) _) (expect_cons (by decide) _) (hfield (by omega) _)
    (readFraction_fractionText hbound []) rfl
  refine hread.trans (ofFields_eq_some ⟨hmonth.1, hmonth.2, hfirst, hlength⟩ (by omega)
    ⟨hyear.1, hyear.2, h.dated⟩ ?_)
  rw [hcarry, hback]
  have hseconds : t.seconds = t.seconds.fdiv 86400 * 86400 +
      ((t.secondOfDay / 3600 * 3600 + t.secondOfDay / 60 % 60 * 60 +
        (t.secondOfDay % 60 + t.leap) - t.leap : Nat) : Int) := by
    omega
  have hnanos : t.nanos = t.fraction + t.leap * 1000000000 := by omega
  rw [← hseconds, ← hnanos]

end Intake.Instant
