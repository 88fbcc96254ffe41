import AliasHoist.Proofs.Time.RoundTrip

/-!
# How far back the calendar reaches

Going back some days from a point in time leads to a date as long as the calendar reaches back that far.
Days are counted through, so this is a matter of counting the days since the calendar's first.

## Main Definitions

* `Date.first`, `Date.afterLast`: the first day of the calendar, and the one after its last;
* `Timestamp.reach`: how many days the calendar reaches back;
* `Timestamp.daysAgo`: the point in time some days ago, in the calendar or not.

## Main Statements

* `Date.le_year_ofDays_iff`: a day is in a year or later when it is not before that year's first;
* `Timestamp.minusDays?_eq`: when there is a date some days ago;
* `Timestamp.before_daysAgo`: fewer days ago is later.
-/

namespace AliasHoist

namespace Date

/-- The first day of a year. -/
def newYear (year : Int) : Date := { year, month := 1, day := 1 }

/-- **The first day of the calendar.**  Years are counted through from before the year
zero, and this is the earliest one that dates have. -/
def first : Date := newYear (-262143)

/-- The first day that is not in the calendar any more.  It is the first day of a year
of which there are no dates. -/
def afterLast : Date := newYear 262143

/-- The days before a year that begins in March, all eras told.  With the leap day at
the end of a year, the rule of leap years is a sum of quotients. -/
def daysBeforeMarch (year : Int) : Int := 365 * year + year / 4 - year / 100 + year / 400

/-- Every year has at least 365 days. -/
theorem daysBeforeMarch_add_le {year later : Int} (lt : year < later) :
    daysBeforeMarch year + 365 ≤ daysBeforeMarch later := by
  -- among every 25 fourth years there is one hundredth year
  have hundredth (n : Int) : n / 100 = n / 4 / 25 := by omega
  unfold daysBeforeMarch
  rw [hundredth year, hundredth later]
  omega

/-- The days before a year of an era. -/
theorem daysBeforeMarch_era {era year : Int} (low : 0 ≤ year) (high : year ≤ 399) :
    daysBeforeMarch (year + era * 400) = era * 146097 + daysBeforeYear year := by
  unfold daysBeforeMarch daysBeforeYear
  omega

/-- The number of the first day of a year.  It is in the tenth month of a year that begins in March. -/
theorem toDays_newYear (year : Int) :
    (newYear year).toDays + 719468 = daysBeforeMarch (year - 1) + 306 := by
  simp (disch := decide) only [toDays, newYear, Int.fdiv_eq_ediv_of_nonneg]
  unfold daysBeforeMarch
  norm_num
  omega

/-- January and February are the end of a year that begins in March. -/
theorem calendarMonth_le_two_iff {day : Int} (nonneg : 0 ≤ day) (le : day ≤ 365) :
    calendarMonth (monthOfYear day) ≤ 2 ↔ 306 ≤ day := by
  unfold calendarMonth monthOfYear
  split <;> omega

/-- **A day is in a year or later** exactly when it is not before the first day of that
year.  Converting a day to a date and back is not opened for it: the day has its number
(`toDays_ofDays`), and days are counted through. -/
theorem le_year_ofDays_iff (year days : Int) :
    year ≤ (ofDays days).year ↔ (newYear year).toDays ≤ days := by
  obtain ⟨era, yearOfEra, day, count, low, high, nonneg, le, -, date⟩ := ofDays_spec days
  have start := toDays_newYear year
  rw [← daysBeforeMarch_era low high] at count
  rw [date]
  dsimp only
  simp only [calendarMonth_le_two_iff nonneg le]
  -- years are compared first, and within the year that begins in the March before, days
  obtain earlier | same | later := lt_trichotomy (year - 1) (yearOfEra + era * 400)
  · have := daysBeforeMarch_add_le earlier
    split <;> omega
  · rw [same] at start
    split <;> omega
  · have := daysBeforeMarch_add_le later
    split <;> omega

/-- **The days of the calendar.**  Whether there is a date is so a question about one
number. -/
theorem yearInRange_ofDays_iff (days : Int) :
    yearInRange (ofDays days).year = true ↔ first.toDays ≤ days ∧ days < afterLast.toDays := by
  have low := le_year_ofDays_iff (-262143) days
  have high := le_year_ofDays_iff 262143 days
  rw [← first] at low
  rw [← afterLast] at high
  simp only [yearInRange, Bool.and_eq_true, decide_eq_true_eq]
  omega

end Date

namespace Timestamp

/-- The number of the day of a point in time. -/
theorem toDays_date (t : Timestamp) : t.date.toDays = t.seconds / 86400 := by
  rw [date, Date.toDays_ofDays]
  exact Int.fdiv_eq_ediv_of_nonneg _ (by decide)

/-- A point in time is in the calendar when its day is. -/
theorem yearInRange_date_iff (t : Timestamp) : Date.yearInRange t.date.year = true ↔
    Date.first.toDays ≤ t.date.toDays ∧ t.date.toDays < Date.afterLast.toDays := by
  rw [date, Date.yearInRange_ofDays_iff, Date.toDays_ofDays]

/-- How many days the calendar reaches back from a point in time.  It is negative for a
point in time before the calendar. -/
def reach (t : Timestamp) : Int := t.date.toDays - Date.first.toDays

/-- The point in time some days ago, in the calendar or not. -/
def daysAgo (t : Timestamp) (days : Nat) : Timestamp := { t with seconds := t.seconds - 86400 * days }

@[simp] theorem toDays_date_daysAgo (t : Timestamp) (days : Nat) :
    (t.daysAgo days).date.toDays = t.date.toDays - days := by
  rw [toDays_date, toDays_date]
  show (t.seconds - 86400 * days) / 86400 = t.seconds / 86400 - days
  omega

/-- **There is a date some days ago** as long as the calendar reaches back so many days.
Going back leaves the time of the day as it is, so only days are counted. -/
theorem minusDays?_eq {t : Timestamp} (inCalendar : Date.yearInRange t.date.year = true) (days : Nat) :
    t.minusDays? days = if (days : Int) ≤ t.reach then some (t.daysAgo days) else none := by
  have reaches : Date.yearInRange (t.daysAgo days).date.year = true ↔ (days : Int) ≤ t.reach := by
    have start := (yearInRange_date_iff t).mp inCalendar
    rw [yearInRange_date_iff, toDays_date_daysAgo]
    unfold reach
    omega
  show (if Date.yearInRange (t.daysAgo days).date.year = true then some (t.daysAgo days) else none) = _
  simp only [reaches]

/-- **Fewer days ago is later.**  Whoever is older than the later point in time is older
than the earlier one as well. -/
theorem before_daysAgo {t time : Timestamp} {days more : Nat} (le : days ≤ more)
    (old : time.before (t.daysAgo more) = true) : time.before (t.daysAgo days) = true := by
  unfold before daysAgo at old ⊢
  simp only [Bool.or_eq_true, Bool.and_eq_true, decide_eq_true_eq, beq_iff_eq] at old ⊢
  omega

/-- The calendar reaches back this far from the years 1970 to 9999. -/
theorem reach_bounds {t : Timestamp} (since : 1970 ≤ t.date.year) (upTo : t.date.year ≤ 9999) :
    96465292 ≤ t.reach ∧ t.reach < 99398189 := by
  have low := Date.le_year_ofDays_iff 1970 (t.seconds.fdiv 86400)
  have high := Date.le_year_ofDays_iff 10000 (t.seconds.fdiv 86400)
  rw [← date] at low high
  have epoch : (Date.newYear 1970).toDays = 0 := by decide
  have last : (Date.newYear 10000).toDays = 2932897 := by decide
  have first : Date.first.toDays = -96465292 := by decide
  rw [reach, date, Date.toDays_ofDays]
  omega

end Timestamp

end AliasHoist
