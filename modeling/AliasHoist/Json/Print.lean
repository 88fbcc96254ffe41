import AliasHoist.Json.Value
import AliasHoist.Text.Digits
import AliasHoist.Text.Hex

/-!
# Printing JSON

Values are printed over several lines, two blanks per level, with a colon and a blank after keys.
Empty arrays and objects take no line of their own.

## Main Definitions

* `escapeChar`, `quote`: strings, with control characters, quotes and backslashes escaped;
* `printValue`: a value at a level of indentation;
* `Value.pretty`: the text of a value.
-/

namespace AliasHoist.Json

/-- **A character inside a JSON string.**  Control characters without a short escape are written
with four hexadecimal digits; everything beyond ASCII stands for itself. -/
def escapeChar (c : Char) : List Char :=
  if c = '"' then ['\\', '"']
  else if c = '\\' then ['\\', '\\']
  else if c = '\n' then ['\\', 'n']
  else if c = '\r' then ['\\', 'r']
  else if c = '\t' then ['\\', 't']
  else if c = '\x08' then ['\\', 'b']
  else if c = '\x0c' then ['\\', 'f']
  else if c.toNat < 32 then
    ['\\', 'u', '0', '0', Text.hexDigit (c.toNat / 16), Text.hexDigit (c.toNat % 16)]
  else [c]

/-- A text as a JSON string. -/
def quote (text : String) : List Char := '"' :: (text.toList.flatMap escapeChar ++ ['"'])

/-- The text of an integer. -/
def intDigits (i : Int) : List Char :=
  if i < 0 then '-' :: Text.natDigits i.natAbs else Text.natDigits i.natAbs

/-- The text of a number. -/
def printNumber : Number → List Char
  | .integer value => intDigits value
  | .decimal negative digits exponent =>
      (if negative then ['-'] else []) ++ Text.natDigits digits ++ 'e' :: intDigits exponent

/-- The start of a line at a level of indentation. -/
def lineBreak (level : Nat) : List Char := '\n' :: List.replicate (2 * level) ' '

mutual

/-- **A value at a level of indentation.** -/
def printValue (level : Nat) : Value → List Char
  | .null => ['n', 'u', 'l', 'l']
  | .bool true => ['t', 'r', 'u', 'e']
  | .bool false => ['f', 'a', 'l', 's', 'e']
  | .number value => printNumber value
  | .text value => quote value
  | .brokenText => []
  | .array [] => ['[', ']']
  | .array (item :: rest) =>
      '[' :: (lineBreak (level + 1) ++ printValue (level + 1) item ++
        printItems (level + 1) rest ++ lineBreak level ++ [']'])
  | .object [] => ['\x7b', '\x7d']
  | .object ((key, item) :: rest) =>
      '\x7b' :: (lineBreak (level + 1) ++ quote key ++ [':', ' '] ++
        printValue (level + 1) item ++ printMembers (level + 1) rest ++ lineBreak level ++
        ['\x7d'])
  | .malformed => []

/-- The items of an array after the first. -/
def printItems (level : Nat) : List Value → List Char
  | [] => []
  | item :: rest =>
      ',' :: (lineBreak level ++ printValue level item ++ printItems level rest)

/-- The members of an object after the first. -/
def printMembers (level : Nat) : List (String × Value) → List Char
  | [] => []
  | (key, item) :: rest =>
      ',' :: (lineBreak level ++ quote key ++ [':', ' '] ++ printValue level item ++
        printMembers level rest)

end

/-- **The text of a value.** -/
def Value.pretty (value : Value) : String := String.ofList (printValue 0 value)

end AliasHoist.Json
