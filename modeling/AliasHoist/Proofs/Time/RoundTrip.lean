import AliasHoist.Proofs.Text.Digits
import AliasHoist.Time.Parse
import Mathlib.Algebra.Order.Ring.Int
import Mathlib.Tactic.IntervalCases

/-!
# Reading points in time back

A point in time is written as a day of the calendar and a time of that day.  Both are read back, and
together they give the same point in time.

## Main Statements

* `Date.toDays_ofDays`, `Date.isValid_ofDays`: the day with a given number exists and has that number;
* `Timestamp.ofText?_text`: the written form of a point in time names it.

## What is load-bearing

The calendar repeats after an era of four hundred years.  Within an era a day is placed in its
century first (`InCentury`): with the century at hand, the rule of leap years is linear in the number
of the day and in the number of four-year periods before it.
-/

namespace AliasHoist.Date

/-! ## Years of an era -/

/-- The days of an era before one of its years.  Years begin in March.  So the leap day
is the last day of a year, and it shifts no day of its own year. -/
def daysBeforeYear (year : Int) : Int := 365 * year + year / 4 - year / 100

/-- A day of an era is in a century.  The last century has one more day than the others.
In the last year of that one there is a leap day, as the era ends there. -/
structure InCentury (day century : Int) : Prop where
  low : 0 ≤ century
  high : century ≤ 3
  start : 36524 * century ≤ day
  stop : day ≤ 36524 * century + 36524
  ordinary : century ≤ 2 → day < 36524 * century + 36524

theorem inCentury_of_day {day : Int} (nonneg : 0 ≤ day) (lt : day < 146097) :
    InCentury day (day / 36524 - day / 146096) where
  low := by omega
  high := by omega
  start := by omega
  stop := by omega
  ordinary := by omega

/-- The year of an era in which a day is, given the century. -/
def yearInCentury (day century : Int) : Int := (day - day / 1460 + century) / 365

namespace InCentury

variable {day century : Int}

theorem cases (h : InCentury day century) :
    century = 0 ∨ century = 1 ∨ century = 2 ∨ century = 3 := by
  have := h.low
  have := h.high
  omega

/-- The year of a day is in the same century. -/
theorem yearInCentury_div (h : InCentury day century) :
    yearInCentury day century / 100 = century := by
  obtain ⟨-, -, start, stop, ordinary⟩ := id h
  rw [yearInCentury]
  obtain rfl | rfl | rfl | rfl := h.cases
  all_goals omega

/-- **The year of a day has that day**, and only the last of four years has a day more
than the others.  It says that the year is the right one and how far the day is into it.
-/
theorem daysBeforeYear_bounds (h : InCentury day century) {year : Int}
    (hyear : year = yearInCentury day century) :
    daysBeforeYear year ≤ day ∧ day ≤ daysBeforeYear year + 365 ∧
      (day = daysBeforeYear year + 365 → year % 4 = 3) := by
  obtain ⟨-, -, start, stop, -⟩ := id h
  rw [daysBeforeYear, hyear, h.yearInCentury_div, ← hyear]
  rw [yearInCentury] at hyear
  obtain ⟨four, hfour⟩ : ∃ four, year / 4 = four := ⟨_, rfl⟩
  have rest : year = 4 * four ∨ year = 4 * four + 1 ∨ year = 4 * four + 2 ∨
      year = 4 * four + 3 := by
    omega
  rw [hfour]
  obtain rfl | rfl | rfl | rfl := h.cases
  all_goals obtain rest | rest | rest | rest := rest
  all_goals exact ⟨by omega, by omega, by omega⟩

/-- A day that only some years have is in a year before a leap day.  Years are counted
here from March on, so the leap day belongs to the calendar year that follows. -/
theorem isLeapYear_next (h : InCentury day century) {year : Int}
    (hyear : year = yearInCentury day century) (last : day = daysBeforeYear year + 365)
    (era : Int) : isLeapYear (year + era * 400 + 1) = true := by
  have hfour := (h.daysBeforeYear_bounds hyear).2.2 last
  have hcentury := h.yearInCentury_div
  rw [← hyear] at hcentury
  have := h.low
  have := h.high
  have := h.ordinary
  rw [daysBeforeYear] at last
  have rule : (year + 1) % 100 ≠ 0 ∨ (year + 1) % 400 = 0 := by omega
  have fourth : (year + era * 400 + 1) % 4 = 0 := by omega
  have hundredth : (year + era * 400 + 1) % 100 ≠ 0 ∨ (year + era * 400 + 1) % 400 = 0 := by omega
  simpa [isLeapYear, ← Int.emod_def] using ⟨fourth, hundredth⟩

end InCentury

/-! ## Months of a year -/

/-- The days of a year before one of its months, the first of which is March. -/
def daysBeforeMonth (month : Int) : Int := (153 * month + 2) / 5

/-- The month of a year in which a day is. -/
def monthOfYear (day : Int) : Int := (5 * day + 2) / 153

/-- A month is one of the twelve, and it does not begin behind the day. -/
theorem monthOfYear_bounds {day : Int} (nonneg : 0 ≤ day) (le : day ≤ 365) :
    0 ≤ monthOfYear day ∧ monthOfYear day ≤ 11 ∧ daysBeforeMonth (monthOfYear day) ≤ day := by
  rw [daysBeforeMonth, monthOfYear]
  omega

/-- The number of a month when the year begins in January. -/
def calendarMonth (month : Int) : Nat := (if month < 10 then month + 3 else month - 9).toNat

/-- The day of a month, where the leap day is allowed in leap years only.  Each month is
looked at for itself; the last one is February. -/
theorem day_le_daysInMonth (year : Int) {day : Int} (nonneg : 0 ≤ day) (le : day ≤ 365)
    (leap : day = 365 → isLeapYear year = true) :
    (day - daysBeforeMonth (monthOfYear day) + 1).toNat ≤
      daysInMonth year (calendarMonth (monthOfYear day)) := by
  obtain ⟨low, high, -⟩ := monthOfYear_bounds nonneg le
  obtain ⟨month, hmonth⟩ : ∃ month, monthOfYear day = month := ⟨_, rfl⟩
  have hdef := hmonth
  rw [monthOfYear] at hdef
  rw [hmonth] at low high ⊢
  interval_cases month
  all_goals simp only [daysInMonth, calendarMonth, daysBeforeMonth]
  all_goals norm_num
  all_goals first | omega | skip
  by_cases last : day = 365
  · rw [leap last]
    simp [last]
  · split <;> omega

/-! ## The day with a given number -/

/-- **What the day with a given number is**: an era, a year of the era and a day of that
year.  What follows about dates uses these equations in place of the arithmetic of the
definition. -/
theorem ofDays_spec (days : Int) : ∃ era year day : Int,
    days + 719468 = era * 146097 + daysBeforeYear year + day ∧ 0 ≤ year ∧ year ≤ 399 ∧
    0 ≤ day ∧ day ≤ 365 ∧ (day = 365 → isLeapYear (year + era * 400 + 1) = true) ∧
    ofDays days = {
      year := year + era * 400 + if calendarMonth (monthOfYear day) ≤ 2 then 1 else 0
      month := calendarMonth (monthOfYear day)
      day := (day - daysBeforeMonth (monthOfYear day) + 1).toNat } := by
  obtain ⟨era, hera⟩ : ∃ era, (days + 719468) / 146097 = era := ⟨_, rfl⟩
  obtain ⟨dayOfEra, hday⟩ : ∃ day, days + 719468 - era * 146097 = day := ⟨_, rfl⟩
  have century : InCentury dayOfEra (dayOfEra / 36524 - dayOfEra / 146096) :=
    inCentury_of_day (by omega) (by omega)
  obtain ⟨year, hyear⟩ : ∃ year,
    year = yearInCentury dayOfEra (dayOfEra / 36524 - dayOfEra / 146096) := ⟨_, rfl⟩
  obtain ⟨start, stop, -⟩ := century.daysBeforeYear_bounds hyear
  have hcentury := century.yearInCentury_div
  rw [← hyear] at hcentury
  have := century.low
  have := century.high
  have nonneg : 0 ≤ dayOfEra - daysBeforeYear year := by omega
  have le : dayOfEra - daysBeforeYear year ≤ 365 := by omega
  have bounds := monthOfYear_bounds nonneg le
  refine ⟨era, year, dayOfEra - daysBeforeYear year, by omega, by omega, by omega, nonneg, le,
    fun last => century.isLeapYear_next hyear (by omega) era, ?_⟩
  generalize hdayOfYear : dayOfEra - daysBeforeYear year = day at bounds
  have yearEq : (dayOfEra - dayOfEra / 1460 + dayOfEra / 36524 - dayOfEra / 146096) / 365 = year := by
    rw [hyear, yearInCentury]
    congr 1
    omega
  have monthLe : (if monthOfYear day < 10 then monthOfYear day + 3 else monthOfYear day - 9) ≤ 2 ↔
      calendarMonth (monthOfYear day) ≤ 2 := by
    rw [calendarMonth]
    omega
  rw [daysBeforeYear] at hdayOfYear
  rw [monthOfYear] at monthLe
  simp (disch := decide) only [ofDays, Int.fdiv_eq_ediv_of_nonneg, hera, hday, yearEq, hdayOfYear,
    monthLe]
  rfl

/-- **The day with a given number has that number.**  Era, year and day of the year are
put together again. -/
@[simp] theorem toDays_ofDays (days : Int) : (ofDays days).toDays = days := by
  obtain ⟨era, year, day, hdays, low, high, nonneg, le, -, hof⟩ := ofDays_spec days
  obtain ⟨first, last, before⟩ := monthOfYear_bounds nonneg le
  have hyear : (if calendarMonth (monthOfYear day) ≤ 2 then
      year + era * 400 + (if calendarMonth (monthOfYear day) ≤ 2 then 1 else 0) - 1
      else year + era * 400 + if calendarMonth (monthOfYear day) ≤ 2 then 1 else 0) =
      year + era * 400 := by
    split <;> omega
  have hmonth : ((calendarMonth (monthOfYear day) : Int) + 9) % 12 = monthOfYear day := by
    rw [calendarMonth]
    split <;> omega
  have hera : (year + era * 400) / 400 = era := by omega
  rw [hof]
  simp (disch := decide) only [toDays, Int.fdiv_eq_ediv_of_nonneg, hyear, hmonth, hera]
  rw [← daysBeforeMonth]
  rw [daysBeforeYear] at hdays
  have : year + era * 400 - era * 400 = year := by omega
  rw [this]
  omega

/-- The day with a given number exists, if the calendar reaches that far.  There is no
other condition: its month and its day are always those of some date. -/
theorem isValid_ofDays {days : Int} (range : yearInRange (ofDays days).year = true) :
    (ofDays days).isValid = true := by
  obtain ⟨era, year, day, -, -, -, nonneg, le, leap, hof⟩ := ofDays_spec days
  obtain ⟨first, last, before⟩ := monthOfYear_bounds nonneg le
  rw [hof] at range ⊢
  have months : 1 ≤ calendarMonth (monthOfYear day) ∧ calendarMonth (monthOfYear day) ≤ 12 := by
    rw [calendarMonth]
    split <;> omega
  have days : 1 ≤ (day - daysBeforeMonth (monthOfYear day) + 1).toNat := by omega
  have fits := day_le_daysInMonth
    (year + era * 400 + if calendarMonth (monthOfYear day) ≤ 2 then 1 else 0) nonneg le ?_
  · simp only [isValid, range, months, days, fits, Bool.and_eq_true, decide_true, and_self]
  · intro leapDay
    have february : calendarMonth (monthOfYear day) ≤ 2 := by
      rw [leapDay]
      decide
    rw [if_pos february]
    exact leap leapDay

end AliasHoist.Date

namespace AliasHoist

open Text

/-! ## Parts of the written form -/

theorem isBlank_of_isDigit {c : Char} (h : c.isDigit = true) : isBlank c = false := by
  have bounds : 48 ≤ c.toNat ∧ c.toNat ≤ 57 := by
    simpa [Char.isDigit, UInt32.le_iff_toNat_le] using h
  simp only [isBlank, blankRuns, inRuns_cons, inRuns_nil, Bool.or_false, Bool.or_eq_false_iff,
    Bool.and_eq_false_iff, decide_eq_false_iff_not]
  omega

/-- Digits stay when blanks are trimmed. -/
theorem trimBlank_append {digits : List Char} (all : ∀ c ∈ digits, c.isDigit = true)
    (some : digits ≠ []) (rest : List Char) : trimBlank (digits ++ rest) = digits ++ rest := by
  obtain ⟨c, cs, rfl⟩ := List.exists_cons_of_ne_nil some
  have : isBlank c = false := isBlank_of_isDigit (all c List.mem_cons_self)
  simp [trimBlank, this]

/-- Digits are taken up to a number of them, or up to something else. -/
theorem takeDigits_append {most : Nat} {digits rest : List Char}
    (all : ∀ c ∈ digits, c.isDigit = true) (le : digits.length ≤ most)
    (stop : digits.length = most ∨ ∀ c, rest.head? = some c → c.isDigit = false) :
    takeDigits most (digits ++ rest) = digits := by
  rcases stop with full | stop
  · rw [takeDigits, List.takeWhile_append_of_pos all, ← full, List.take_left]
  · have span : (digits ++ rest).takeWhile Char.isDigit = digits :=
      congrArg Prod.fst (spanDigits_append all stop)
    rw [takeDigits, span, List.take_of_length_le le]

/-- The digits of a number are read back. -/
theorem readDigits_append {most width n : Nat} {rest : List Char}
    (le : (paddedDigits width n).length ≤ most)
    (stop : (paddedDigits width n).length = most ∨ ∀ c, rest.head? = some c → c.isDigit = false) :
    readDigits most (paddedDigits width n ++ rest) = some (n, rest) := by
  rw [readDigits, takeDigits_append (fun _ => isDigit_of_mem_paddedDigits) le stop]
  cases h : paddedDigits width n with
  | nil => exact absurd h (by simp [paddedDigits, natDigits_ne_nil])
  | cons c cs =>
      simp only
      rw [← h, ofDigits_paddedDigits, List.drop_left]

theorem readFieldNumber_twoDigits {low high n : Nat} (hlow : low ≤ n) (hhigh : n ≤ high)
    (lt : n < 100) (rest : List Char) :
    readFieldNumber low high ((Timestamp.twoDigits n).toList ++ rest) = some (n, rest) := by
  have length : (paddedDigits 2 n).length = 2 := length_paddedDigits (by decide) lt
  have some : paddedDigits 2 n ≠ [] := by
    intro h
    simp [h] at length
  rw [readFieldNumber, Timestamp.twoDigits, String.toList_ofList,
    trimBlank_append (fun _ => isDigit_of_mem_paddedDigits) some,
    readDigits_append length.le (.inl length)]
  simp [hlow, hhigh]

theorem readMark_cons {mark : Char} (h : isBlank mark = false) (rest : List Char) :
    readMark mark (mark :: rest) = some ((), rest) := by
  simp [readMark, trimBlank, h]

theorem toList_minus : "-".toList = ['-'] := rfl

theorem toList_plus : "+".toList = ['+'] := rfl

theorem toList_point : ".".toList = ['.'] := rfl

/-- After a sign a year takes all digits. -/
theorem readDigits_signed (n : Nat) (rest : List Char) :
    readDigits (paddedDigits 4 n ++ '-' :: rest).length (paddedDigits 4 n ++ '-' :: rest) =
      some (n, '-' :: rest) :=
  readDigits_append (by simp) (.inr (by simp))

theorem readYear_minus (rest : List Char) : readYear ('-' :: rest) =
    (readDigits rest.length rest).map fun (n, rest) => (-(n : Int), rest) := rfl

theorem readYear_plus (rest : List Char) : readYear ('+' :: rest) =
    (readDigits rest.length rest).map fun (n, rest) => ((n : Int), rest) := rfl

/-- A year is read back, whichever way it is written: years of more than four digits and
years before the year zero have a sign. -/
theorem readYear_yearText (year : Int) (rest : List Char) :
    readYear ((Timestamp.yearText year).toList ++ '-' :: rest) = some (year, '-' :: rest) := by
  rw [Timestamp.yearText]
  split_ifs with negative large
  · simp only [String.toList_append, toList_minus, String.toList_ofList, List.cons_append,
      List.nil_append]
    rw [readYear_minus, readDigits_signed]
    simp [Int.ofNat_natAbs_of_nonpos negative.le]
  · simp only [String.toList_append, toList_plus, String.toList_ofList, List.cons_append,
      List.nil_append]
    rw [readYear_plus, readDigits_signed]
    simp [Int.natAbs_of_nonneg (Int.not_lt.mp negative)]
  · have length : (paddedDigits 4 year.natAbs).length = 4 :=
      length_paddedDigits (by decide) (by omega)
    have read : readDigits 4 (paddedDigits 4 year.natAbs ++ '-' :: rest) =
        some (year.natAbs, '-' :: rest) := readDigits_append length.le (.inl length)
    have all : ∀ c ∈ paddedDigits 4 year.natAbs, c.isDigit = true :=
      fun _ => isDigit_of_mem_paddedDigits
    rw [String.toList_ofList]
    cases h : paddedDigits 4 year.natAbs with
    | nil => simp [h] at length
    | cons c cs =>
        rw [h] at all read
        have digit := all c List.mem_cons_self
        rw [readYear, trimBlank_append all (by simp)]
        split
        next eq => simp_all
        next eq => simp_all
        next =>
          rw [read]
          simp [Int.natAbs_of_nonneg (Int.not_lt.mp negative)]

/-- A date that exists is read back. -/
theorem readDate_dateText {t : Timestamp} (valid : t.date.isValid = true) (rest : List Char) :
    readDate (t.dateText.toList ++ rest) = some (t.date, rest) := by
  have bounds : 1 ≤ t.date.month ∧ t.date.month ≤ 12 ∧ 1 ≤ t.date.day ∧ t.date.day ≤ 31 := by
    have : Date.daysInMonth t.date.year t.date.month ≤ 31 := by
      rw [Date.daysInMonth]
      split_ifs <;> omega
    simp only [Date.isValid, Bool.and_eq_true, decide_eq_true_eq] at valid
    omega
  have mark : isBlank '-' = false := by decide
  simp only [Timestamp.dateText, String.toList_append, List.append_assoc, toList_minus,
    List.cons_append, List.nil_append]
  rw [readDate, readYear_yearText]
  simp only [Option.bind_eq_bind, Option.bind_some, readMark_cons mark]
  rw [readFieldNumber_twoDigits (by omega) (by omega) (by omega)]
  simp only [Option.bind_some, readMark_cons mark]
  rw [readFieldNumber_twoDigits (by omega) (by omega) (by omega)]
  rfl

/-- The digits of a fraction are read back. -/
theorem readFraction_digits {width n : Nat} (positive : 0 < width) (le : width ≤ 9)
    (lt : n < 10 ^ width) :
    readFraction ('.' :: (paddedDigits width n ++ ['Z'])) = some (n * 10 ^ (9 - width), ['Z']) := by
  have length := length_paddedDigits positive lt
  have all : ∀ c ∈ paddedDigits width n, c.isDigit = true := fun _ => isDigit_of_mem_paddedDigits
  have stop : ∀ c, ['Z'].head? = some c → c.isDigit = false := by simp
  have dropped : (paddedDigits width n ++ ['Z']).dropWhile Char.isDigit = ['Z'] :=
    congrArg Prod.snd (spanDigits_append all stop)
  rw [readFraction, takeDigits_append all (by omega) (.inr stop), dropped]
  cases h : paddedDigits width n with
  | nil =>
      rw [h] at length
      exact absurd length (Nat.ne_of_lt positive)
  | cons c cs =>
      simp only
      rw [← h, length, ofDigits_paddedDigits]
      rfl

theorem readFraction_point {width n nanos : Nat} (positive : 0 < width) (le : width ≤ 9)
    (lt : n < 10 ^ width) (scaled : n * 10 ^ (9 - width) = nanos) :
    readFraction (("." ++ String.ofList (paddedDigits width n)).toList ++ ['Z']) =
      some (nanos, ['Z']) := by
  simp only [String.toList_append, toList_point, String.toList_ofList, List.cons_append,
    List.nil_append]
  rw [readFraction_digits positive le lt, scaled]

/-- The fraction of a second is read back.  It is written with three, six or nine
digits, or not at all. -/
theorem readFraction_fractionText {nanos : Nat} (lt : nanos < 1000000000) :
    readFraction ((Timestamp.fractionText nanos).toList ++ ['Z']) = some (nanos, ['Z']) := by
  rw [Timestamp.fractionText]
  split_ifs with none milli micro
  · rw [none]
    rfl
  · exact readFraction_point (by decide) (by decide) (by omega) (by omega)
  · exact readFraction_point (by decide) (by decide) (by omega) (by omega)
  · exact readFraction_point (by decide) (by decide) (by omega) (by omega)

namespace Timestamp

/-- **Whether a point in time can be written**: the calendar reaches as far, and only
the last second of a minute is prolonged.  The clock gives such points in time only. -/
def isWritable (t : Timestamp) : Bool :=
  Date.yearInRange t.date.year &&
    (t.nanos < 1000000000 || (t.nanos < 2000000000 && t.secondOfDay % 60 == 59))

/-- The seconds of a point in time are those of its day and those of its time. -/
theorem seconds_eq (t : Timestamp) : t.date.toDays * 86400 + t.secondOfDay = t.seconds := by
  have day := Int.fdiv_eq_ediv_of_nonneg t.seconds (show 0 ≤ 86400 by decide)
  have time := Int.fmod_eq_emod_of_nonneg t.seconds (show 0 ≤ 86400 by decide)
  rw [date, Date.toDays_ofDays, secondOfDay, day, time]
  omega

/-- The part of the written form after the date. -/
def timeText (t : Timestamp) : String :=
  let leap := 1000000000 ≤ t.nanos
  let second := t.secondOfDay % 60 + if leap then 1 else 0
  let nanos := if leap then t.nanos - 1000000000 else t.nanos
  t.minuteText ++ ":" ++ twoDigits second ++ fractionText nanos ++ "Z"

/-- The time of a day is read back.  A prolonged second is written as the second sixty
of its minute. -/
theorem readTime_timeText {t : Timestamp} (h : t.isWritable = true) :
    readTime t.timeText.toList = some ((t.secondOfDay, t.nanos), ['Z']) := by
  have mark : isBlank ':' = false := by decide
  have colon : ":".toList = [':'] := rfl
  have zulu : "Z".toList = ['Z'] := rfl
  have range : t.secondOfDay < 86400 := by
    have := Int.fmod_eq_emod_of_nonneg t.seconds (show 0 ≤ 86400 by decide)
    rw [secondOfDay, this]
    omega
  simp only [isWritable, Bool.and_eq_true, Bool.or_eq_true, decide_eq_true_eq, beq_iff_eq] at h
  simp only [timeText, minuteText, String.toList_append, List.append_assoc, colon, zulu,
    List.cons_append, List.nil_append]
  rw [readTime, readFieldNumber_twoDigits (by omega) (by omega) (by omega)]
  simp only [Option.bind_eq_bind, Option.bind_some, readMark_cons mark]
  rw [readFieldNumber_twoDigits (by omega) (by omega) (by omega)]
  simp only [Option.bind_some, readMark_cons mark]
  rw [readFieldNumber_twoDigits (by omega) (by split <;> omega) (by split <;> omega)]
  simp only [Option.bind_some]
  rw [readFraction_fractionText (by split <;> omega)]
  simp only [Option.bind_some]
  -- a leap second is second 60, so the two cases are told apart by the second that was read
  have leap : t.secondOfDay % 60 + (if 1000000000 ≤ t.nanos then 1 else 0) = 60 ↔
      1000000000 ≤ t.nanos := by
    split <;> omega
  simp only [leap]
  congr 2
  split <;> congr 1 <;> omega

/-- The written form of a point in time names it.  The date and the time are read one
after the other, so it is put together from the two. -/
theorem ofText?_text {t : Timestamp} (h : t.isWritable = true) : ofText? t.text = some t := by
  have range : Date.yearInRange t.date.year = true := by
    simp only [isWritable, Bool.and_eq_true] at h
    exact h.1
  have valid : t.date.isValid = true := Date.isValid_ofDays range
  have written : t.text.toList = t.dateText.toList ++ 'T' :: t.timeText.toList := by
    have : "T".toList = ['T'] := rfl
    simp only [text, timeText, String.toList_append, List.append_assoc, this, List.cons_append,
      List.nil_append]
  have separator : readSeparator ('T' :: t.timeText.toList) = some ((), t.timeText.toList) := rfl
  have offset : readOffset (trimBlank ['Z']) = some (0, []) := rfl
  rw [ofText?, written, readDate_dateText valid]
  simp only [Option.bind_eq_bind, Option.bind_some, separator, readTime_timeText h, offset]
  simp [trimBlank, valid, seconds_eq, range]

end Timestamp

end AliasHoist
