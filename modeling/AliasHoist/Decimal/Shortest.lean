/-!
# Shortest decimals of floating-point numbers

A floating-point number is printed with the fewest digits that read back as the same number.

## Main Definitions

* `Binary`: a finite number as `mantissa · 2 ^ exponent`, with what is needed of its neighbours;
* `Binary.contains`: whether a decimal rounds to the number;
* `Decimal`: `digits · 10 ^ exponent`;
* `Binary.shortest`: the decimal with the fewest digits that rounds to the number, and the nearest
  of those.

## Design Notes

Everything is exact arithmetic on natural numbers.  For each number of digits the two neighbours of
the value on that decimal grid are tried; a grid that has any point in the interval of numbers that
round to the value has one of these two in it.
-/

namespace AliasHoist

/-- A decimal number without sign: `digits · 10 ^ exponent`. -/
structure Decimal where
  digits : Nat
  exponent : Int
  deriving DecidableEq, Repr

/-- A finite, positive floating-point number: `mantissa · 2 ^ exponent`. -/
structure Binary where
  mantissa : Nat
  exponent : Int
  /-- Whether the next smaller number is only half as far away as the next larger one. -/
  lowerClose : Bool
  deriving DecidableEq, Repr

namespace Binary

/-- The size of a double-precision number, from its bits without the sign. -/
def ofBits (bits : Nat) : Binary :=
  let fraction := bits % (1 <<< 52)
  let scale : Nat := (bits >>> 52) % (1 <<< 11)
  if scale = 0 then { mantissa := fraction, exponent := -1074, lowerClose := false }
  else
    { mantissa := fraction + (1 <<< 52), exponent := (scale : Int) - 1075
      lowerClose := fraction == 0 && 1 < scale }

/-- A fraction with positive denominator. -/
structure Ratio where
  num : Nat
  den : Nat
  deriving DecidableEq, Repr

/-- `n · 2 ^ e` as a fraction. -/
def scaled (n : Nat) (e : Int) : Ratio :=
  { num := n <<< e.toNat, den := 1 <<< (-e).toNat }

/-- `n · 10 ^ e` as a fraction. -/
def tenfold (n : Nat) (e : Int) : Ratio :=
  { num := n * Nat.pow 10 e.toNat, den := Nat.pow 10 (-e).toNat }

/-- Whether a fraction is less than another. -/
def Ratio.lt (a b : Ratio) : Bool := a.num * b.den < b.num * a.den

/-- Whether a fraction is at most another. -/
def Ratio.le (a b : Ratio) : Bool := a.num * b.den ≤ b.num * a.den

/-- The number itself. -/
def value (x : Binary) : Ratio := scaled x.mantissa x.exponent

/-- The lower end of the interval of numbers that round to this one. -/
def lower (x : Binary) : Ratio :=
  if x.lowerClose then scaled (4 * x.mantissa - 1) (x.exponent - 2)
  else scaled (2 * x.mantissa - 1) (x.exponent - 1)

/-- The upper end of the interval of numbers that round to this one. -/
def upper (x : Binary) : Ratio := scaled (2 * x.mantissa + 1) (x.exponent - 1)

/-- Whether a fraction rounds to the number.  The ends of the interval do when the mantissa is
even. -/
def contains (x : Binary) (r : Ratio) : Bool :=
  if x.mantissa % 2 = 0 then x.lower.le r && r.le x.upper else x.lower.lt r && r.lt x.upper

/-- The number of digits before the decimal point, negative when zeros follow it. -/
def magnitude (r : Ratio) : Int :=
  if r.den ≤ r.num then (Nat.toDigits 10 (r.num / r.den)).length
  else
    let zeros := (List.range 400).find? fun n => r.den ≤ r.num * Nat.pow 10 (n + 1)
    Int.negOfNat (zeros.getD 400)

/-- The distance of two fractions with a common denominator, as a numerator. -/
def distance (a b : Ratio) : Nat :=
  let x := a.num * b.den
  let y := b.num * a.den
  if x ≤ y then y - x else x - y

/-- The decimal of a number of digits that rounds to the number: the value's neighbour below or
above on the grid, the nearer one if both do. -/
def onGrid? (x : Binary) (count : Nat) : Option Decimal :=
  let unit := magnitude x.value - count
  let cell := tenfold 1 unit
  let below := x.value.num * cell.den / (x.value.den * cell.num)
  let inside (n : Nat) : Bool := contains x (tenfold n unit)
  let pick (n : Nat) : Option Decimal := some { digits := n, exponent := unit }
  if inside below && 0 < below then
    if inside (below + 1) &&
        distance x.value (tenfold (below + 1) unit) < distance x.value (tenfold below unit) then
      pick (below + 1)
    else pick below
  else if inside (below + 1) then pick (below + 1)
  else none

end Binary

namespace Decimal

/-- A decimal without zeros at its end. -/
def trim (digits : Nat) (exponent : Int) : Decimal :=
  if _h : digits ≠ 0 ∧ digits % 10 = 0 then trim (digits / 10) (exponent + 1)
  else { digits, exponent }
termination_by digits
decreasing_by omega

end Decimal

/-- **The shortest decimal that reads back as the number.**  Seventeen digits always suffice. -/
def Binary.shortest (x : Binary) : Decimal :=
  let best := (((List.range 17).findSome? fun n => x.onGrid? (n + 1)).getD
    { digits := 0, exponent := 0 })
  Decimal.trim best.digits best.exponent

end AliasHoist
