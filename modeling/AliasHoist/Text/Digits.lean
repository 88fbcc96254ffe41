/-!
# Decimal digits

Natural numbers as decimal digits, in both directions.
-/

namespace AliasHoist.Text

/-- The value of a decimal digit. -/
def digitValue (c : Char) : Nat := c.toNat - 48

/-- The number that a list of digits stands for. -/
def ofDigits (digits : List Char) : Nat :=
  digits.foldl (fun value digit => 10 * value + digitValue digit) 0

@[simp] theorem ofDigits_nil : ofDigits [] = 0 := rfl

theorem ofDigits_append_singleton (digits : List Char) (digit : Char) :
    ofDigits (digits ++ [digit]) = 10 * ofDigits digits + digitValue digit := by
  simp [ofDigits, List.foldl_append]

/-- The digits of a number. -/
def natDigits (n : Nat) : List Char := Nat.toDigits 10 n

/-- The digits of a number, filled up with zeros to a width. -/
def paddedDigits (width n : Nat) : List Char :=
  let digits := natDigits n
  List.replicate (width - digits.length) '0' ++ digits

/-- The digits at the start of a text, and what follows them. -/
def spanDigits (cs : List Char) : List Char × List Char :=
  (cs.takeWhile Char.isDigit, cs.dropWhile Char.isDigit)

end AliasHoist.Text
