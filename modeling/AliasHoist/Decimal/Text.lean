import AliasHoist.Decimal.Shortest
import AliasHoist.Text.Digits

/-!
# Texts of floating-point numbers

How a floating-point number is written in a message.  Both forms use the shortest decimal and keep a
digit after the point; they differ in when they turn to powers of ten.

## Main Definitions

* `FloatStyle.positional`: always positional;
* `FloatStyle.scientific`: powers of ten for large and small numbers.
-/

namespace AliasHoist

/-- How floating-point numbers are written. -/
inductive FloatStyle where
  | positional
  | scientific
  deriving DecidableEq, Repr

namespace Decimal

/-- A decimal with all its zeros, and at least one digit after the point. -/
def positional (d : Decimal) : List Char :=
  let digits := Text.natDigits d.digits
  if 0 ≤ d.exponent then digits ++ List.replicate d.exponent.toNat '0' ++ ['.', '0']
  else
    let places := (-d.exponent).toNat
    if places < digits.length then
      digits.take (digits.length - places) ++ '.' :: digits.drop (digits.length - places)
    else '0' :: '.' :: (List.replicate (places - digits.length) '0' ++ digits)

/-- A decimal as one digit, the others after a point, and a power of ten. -/
def scientific (d : Decimal) : List Char :=
  let digits := Text.natDigits d.digits
  let power : Int := d.exponent + digits.length - 1
  let sign := if power < 0 then ['-'] else []
  let rest := digits.drop 1
  digits.take 1 ++ (if rest.isEmpty then [] else '.' :: rest) ++ 'e' :: sign ++
    Text.natDigits power.natAbs

/-- The form that a style gives a decimal.  The scientific style is positional as long as the point
stands within sixteen digits before the number's end or five after its beginning. -/
def render (style : FloatStyle) (d : Decimal) : List Char :=
  let point : Int := d.exponent + (Text.natDigits d.digits).length
  match style with
  | .positional => d.positional
  | .scientific => if -5 < point ∧ point ≤ 16 then d.positional else d.scientific

end Decimal

/-- **The text of a floating-point number.** -/
def floatText (style : FloatStyle) (x : Float) : String :=
  let bits := x.toBits.toNat
  let sign := if 1 <<< 63 ≤ bits then "-" else ""
  let size := bits % (1 <<< 63)
  if 0x7ff <<< 52 < size then "NaN"
  else if size = 0x7ff <<< 52 then sign ++ "inf"
  else if size = 0 then sign ++ "0.0"
  else sign ++ String.ofList ((Binary.ofBits size).shortest.render style)

end AliasHoist
