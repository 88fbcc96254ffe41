import AliasHoist.Text.Digits
import AliasHoist.Time.Calendar

/-!
# Points in time

Points in time to the nanosecond, in universal time.

## Main Definitions

* `Timestamp`: seconds since the beginning of 1970, and nanoseconds;
* `Timestamp.before`: their order;
* `Timestamp.text`: the written form, with as many digits as needed;
* `Timestamp.minusDays?`: a number of days earlier.

## Design Notes

A leap second has the number of the second before it, with nanoseconds beyond the thousand million,
and is written as second 60.
-/

namespace AliasHoist

/-- **A point in time.** -/
structure Timestamp where
  /-- Seconds since the beginning of 1970. -/
  seconds : Int
  nanos : Nat
  deriving DecidableEq, Repr

namespace Timestamp

/-- Whether a point in time is earlier than another. -/
def before (a b : Timestamp) : Bool :=
  a.seconds < b.seconds || (a.seconds == b.seconds && a.nanos < b.nanos)

/-- The day of a point in time. -/
def date (t : Timestamp) : Date := .ofDays (t.seconds.fdiv 86400)

/-- The second of its day. -/
def secondOfDay (t : Timestamp) : Nat := (t.seconds.fmod 86400).toNat

/-- Two digits. -/
def twoDigits (n : Nat) : String := String.ofList (Text.paddedDigits 2 n)

/-- A year: four digits, with a sign when four are not enough or the year is negative. -/
def yearText (year : Int) : String :=
  let digits := String.ofList (Text.paddedDigits 4 year.natAbs)
  if year < 0 then "-" ++ digits
  else if 9999 < year then "+" ++ digits
  else digits

/-- The day as year, month and day. -/
def dateText (t : Timestamp) : String :=
  yearText t.date.year ++ "-" ++ twoDigits t.date.month ++ "-" ++ twoDigits t.date.day

/-- Hour and minute. -/
def minuteText (t : Timestamp) : String :=
  twoDigits (t.secondOfDay / 3600) ++ ":" ++ twoDigits (t.secondOfDay / 60 % 60)

/-- The fraction of a second in as few groups of three digits as possible. -/
def fractionText (nanos : Nat) : String :=
  if nanos = 0 then ""
  else if nanos % 1000000 = 0 then "." ++ String.ofList (Text.paddedDigits 3 (nanos / 1000000))
  else if nanos % 1000 = 0 then "." ++ String.ofList (Text.paddedDigits 6 (nanos / 1000))
  else "." ++ String.ofList (Text.paddedDigits 9 nanos)

/-- **The written form of a point in time.** -/
def text (t : Timestamp) : String :=
  let leap := 1000000000 ≤ t.nanos
  let second := t.secondOfDay % 60 + if leap then 1 else 0
  let nanos := if leap then t.nanos - 1000000000 else t.nanos
  t.dateText ++ "T" ++ t.minuteText ++ ":" ++ twoDigits second ++ fractionText nanos ++ "Z"

/-- The form for listings: day, hour and minute. -/
def shortText (t : Timestamp) : String := t.dateText ++ " " ++ t.minuteText

/-- The same time some days earlier, as long as the calendar reaches back that far. -/
def minusDays? (t : Timestamp) (days : Nat) : Option Timestamp :=
  let earlier := { t with seconds := t.seconds - 86400 * days }
  if Date.yearInRange earlier.date.year then some earlier else none

end Timestamp

end AliasHoist
