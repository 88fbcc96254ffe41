import AliasHoist.Text.Blank
import AliasHoist.Time.Timestamp

/-!
# Reading points in time

A point in time is written as a date, a time of day and a distance from universal time, as in
`2024-05-17T08:30:00+02:00`.  Reading is generous: blanks may stand around the parts, numbers may
have fewer digits, the date may be separated by a blank, and second 60 is a leap second.

## Main Definitions

* `readFieldNumber`, `readYear`, `readFraction`, `readOffset`: the parts;
* `Timestamp.ofText?`: the point in time that a text names.
-/

namespace AliasHoist

open Text

/-- A reader of a part of a text. -/
abbrev PartReader (α : Type) := List Char → Option (α × List Char)

/-- The digits at the start of a text, at most a number of them. -/
def takeDigits (most : Nat) (cs : List Char) : List Char := (cs.takeWhile Char.isDigit).take most

/-- A number of at least one and at most a number of digits. -/
def readDigits (most : Nat) : PartReader Nat := fun cs =>
  match takeDigits most cs with
  | [] => none
  | digits => some (ofDigits digits, cs.drop digits.length)

/-- A number of one or two digits after blanks, within bounds. -/
def readFieldNumber (low high : Nat) : PartReader Nat := fun cs => do
  let (n, rest) ← readDigits 2 (trimBlank cs)
  if low ≤ n ∧ n ≤ high then some (n, rest) else none

/-- A year after blanks: up to four digits, or any number of them after a sign. -/
def readYear : PartReader Int := fun cs =>
  match trimBlank cs with
  | '-' :: rest => (readDigits rest.length rest).map fun (n, rest) => (-(n : Int), rest)
  | '+' :: rest => (readDigits rest.length rest).map fun (n, rest) => ((n : Int), rest)
  | cs => (readDigits 4 cs).map fun (n, rest) => ((n : Int), rest)

/-- A mark after blanks. -/
def readMark (mark : Char) : PartReader Unit := fun cs =>
  match trimBlank cs with
  | c :: rest => if c = mark then some ((), rest) else none
  | [] => none

/-- The nanoseconds after a point, none without one.  Digits beyond the ninth are passed over. -/
def readFraction : PartReader Nat
  | '.' :: rest =>
      match takeDigits 9 rest with
      | [] => none
      | digits =>
          some (ofDigits digits * Nat.pow 10 (9 - digits.length), rest.dropWhile Char.isDigit)
  | cs => some (0, cs)

/-- Two digits. -/
def readTwoDigits : PartReader Nat
  | a :: b :: rest =>
      if a.isDigit && b.isDigit then some (10 * digitValue a + digitValue b, rest) else none
  | _ => none

/-- The distance from universal time after its sign, in seconds. -/
def readOffsetDigits : PartReader Nat := fun cs => do
  let (hours, rest) ← readTwoDigits cs
  let (minutes, rest) ← readTwoDigits (rest.dropWhile fun c => c = ':' || isBlank c)
  if minutes < 60 then some (3600 * hours + 60 * minutes, rest) else none

/-- **The distance from universal time**, in seconds: a letter or a word for none, or hours and
minutes after a sign. -/
def readOffset : PartReader Int
  | u :: t :: c :: rest =>
      if u.toUpper = 'U' ∧ t.toUpper = 'T' ∧ c.toUpper = 'C' then some (0, rest)
      else readSigned (u :: t :: c :: rest)
  | cs => readSigned cs
where
  /-- The distance without the word for none. -/
  readSigned : PartReader Int
    | c :: rest =>
        if c = 'Z' ∨ c = 'z' then some (0, rest)
        else if c = '+' then (readOffsetDigits rest).map fun (n, rest) => ((n : Int), rest)
        else if c = '-' ∨ c = '−' then
          (readOffsetDigits rest).map fun (n, rest) => (-(n : Int), rest)
        else none
    | [] => none

/-- A date. -/
def readDate : PartReader Date := fun cs => do
  let (year, rest) ← readYear cs
  let ((), rest) ← readMark '-' rest
  let (month, rest) ← readFieldNumber 1 12 rest
  let ((), rest) ← readMark '-' rest
  let (day, rest) ← readFieldNumber 1 31 rest
  some ({ year, month, day }, rest)

/-- A time of day as seconds and nanoseconds.  Second 60 is second 59 with a thousand million
nanoseconds more. -/
def readTime : PartReader (Nat × Nat) := fun cs => do
  let (hour, rest) ← readFieldNumber 0 23 cs
  let ((), rest) ← readMark ':' rest
  let (minute, rest) ← readFieldNumber 0 59 rest
  let ((), rest) ← readMark ':' rest
  let (second, rest) ← readFieldNumber 0 60 rest
  let (nanos, rest) ← readFraction rest
  let leap := second = 60
  let ofDay := 3600 * hour + 60 * minute + if leap then 59 else second
  some ((ofDay, if leap then nanos + 1000000000 else nanos), rest)

/-- The separator of date and time. -/
def readSeparator : PartReader Unit
  | c :: rest => if c = 'T' ∨ c = 't' ∨ c = ' ' then some ((), rest) else none
  | [] => none

/-- **The point in time that a text names.** -/
def Timestamp.ofText? (text : String) : Option Timestamp := do
  let (date, rest) ← readDate text.toList
  let ((), rest) ← readSeparator rest
  let ((ofDay, nanos), rest) ← readTime rest
  let (offset, rest) ← readOffset (trimBlank rest)
  let t : Timestamp := { seconds := date.toDays * 86400 + ofDay - offset, nanos }
  if (trimBlank rest).isEmpty && date.isValid && offset.natAbs < 86400 &&
      Date.yearInRange t.date.year then some t
  else none

end AliasHoist
