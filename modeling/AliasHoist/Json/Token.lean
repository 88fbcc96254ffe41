import AliasHoist.Json.Value
import AliasHoist.Text.Digits
import AliasHoist.Text.Hex

/-!
# JSON tokens

The words of a JSON text.

## Main Definitions

* `Token`: punctuation, literals, numbers and strings;
* `readString`: the rest of a string after its opening quote;
* `readNumber`: a number;
* `tokens`: the tokens of a text, up to the first place that is none.

## Design Notes

Each reader takes as much of the text as belongs to its token and no more, so that what follows a
token is looked at only after the token itself.
-/

namespace AliasHoist.Json

/-- A word of a JSON text. -/
inductive Token where
  | openArray
  | closeArray
  | openObject
  | closeObject
  | comma
  | colon
  /-- A value without parts. -/
  | scalar (value : Value)
  /-- Here the text is not JSON. -/
  | bad
  deriving Repr

/-! ## Strings -/

/-- A unit of a string: a character, or half of a surrogate pair. -/
inductive StringUnit where
  | char (c : Char)
  | highHalf (code : Nat)
  | lowHalf (code : Nat)
  deriving DecidableEq, Repr

/-- The unit that four hexadecimal digits name. -/
def StringUnit.ofCode (code : Nat) : StringUnit :=
  if 0xD800 ≤ code ∧ code < 0xDC00 then .highHalf code
  else if 0xDC00 ≤ code ∧ code < 0xE000 then .lowHalf code
  else .char (Char.ofNat code)

/-- The number that four hexadecimal digits stand for. -/
def hexCode? (a b c d : Char) : Option Nat := do
  let a ← Text.hexValue? a
  let b ← Text.hexValue? b
  let c ← Text.hexValue? c
  let d ← Text.hexValue? d
  return 4096 * a + 256 * b + 16 * c + d

/-- The character that a letter after a backslash stands for. -/
def shortEscape? : Char → Option Char
  | '"' => some '"'
  | '\\' => some '\\'
  | '/' => some '/'
  | 'b' => some '\x08'
  | 'f' => some '\x0c'
  | 'n' => some '\n'
  | 'r' => some '\r'
  | 't' => some '\t'
  | _ => none

/-- **The rest of a string after its opening quote**: its units, and the text after the closing
quote.  Control characters have to be escaped. -/
def readString : List Char → Option (List StringUnit × List Char)
  | [] => none
  | '"' :: rest => some ([], rest)
  | '\\' :: 'u' :: a :: b :: c :: d :: rest =>
      match hexCode? a b c d with
      | some code => (readString rest).map fun (units, rest) => (.ofCode code :: units, rest)
      | none => none
  | '\\' :: letter :: rest =>
      match shortEscape? letter with
      | some char => (readString rest).map fun (units, rest) => (.char char :: units, rest)
      | none => none
  | c :: rest =>
      if c.toNat < 32 ∨ c = '\\' then none
      else (readString rest).map fun (units, rest) => (.char c :: units, rest)

/-- The characters of a string, if its halves pair up. -/
def joinUnits : List StringUnit → Option (List Char)
  | [] => some []
  | .char c :: rest => (joinUnits rest).map (c :: ·)
  | .highHalf high :: .lowHalf low :: rest =>
      (joinUnits rest).map (Char.ofNat (0x10000 + (high - 0xD800) * 0x400 + (low - 0xDC00)) :: ·)
  | _ => none

/-- The value of a string. -/
def stringValue (units : List StringUnit) : Value :=
  match joinUnits units with
  | some chars => .text (String.ofList chars)
  | none => .brokenText

/-! ## Numbers -/

/-- The digits of a number as far as they fit into 64 bits, and how many were left out. -/
structure Significand where
  value : Nat
  omitted : Nat
  deriving DecidableEq, Repr

/-- The digits before the point: once one does not fit, all that follow only count. -/
def Significand.addWhole (s : Significand) (digit : Char) : Significand :=
  let next := 10 * s.value + Text.digitValue digit
  if s.omitted = 0 ∧ next < UInt64.size then { s with value := next }
  else { s with omitted := s.omitted + 1 }

/-- The digits after the point: those that fit are taken, the rest is dropped. -/
def addPlaces (value : Nat) (places : Nat) : List Char → Nat × Nat
  | [] => (value, places)
  | digit :: rest =>
      let next := 10 * value + Text.digitValue digit
      if next < UInt64.size then addPlaces next (places + 1) rest else (value, places)

/-- A number without point and exponent: an integer when 64 bits hold it. -/
def wholeNumber (negative : Bool) (digits : List Char) : Number :=
  let s := digits.foldl Significand.addWhole { value := 0, omitted := 0 }
  if s.omitted ≠ 0 then .decimal negative s.value s.omitted
  else if negative then
    if 0 < s.value ∧ s.value ≤ 0x8000000000000000 then .integer (-s.value) else .decimal true s.value 0
  else .integer s.value

/-- A number with digits after a point, or with an exponent. -/
def fractionNumber (negative : Bool) (whole places : List Char) (exponent : Int) : Number :=
  let s := whole.foldl Significand.addWhole { value := 0, omitted := 0 }
  let (value, used) := addPlaces s.value 0 places
  .decimal negative value (exponent + s.omitted - used)

/-- The digits of a whole part: no zero in front of others. -/
def readWhole (cs : List Char) : Option (List Char × List Char) :=
  match Text.spanDigits cs with
  | ([], _) => none
  | ('0' :: _ :: _, _) => none
  | (digits, rest) => some (digits, rest)

/-- The digits after a point, none if there is no point. -/
def readPlaces : List Char → Option (List Char × List Char)
  | '.' :: rest =>
      match Text.spanDigits rest with
      | ([], _) => none
      | (digits, rest) => some (digits, rest)
  | cs => some ([], cs)

/-- The digits of an exponent after its sign. -/
def readExponentDigits (negative : Bool) (cs : List Char) : Option (Option Int × List Char) :=
  match Text.spanDigits cs with
  | ([], _) => none
  | (digits, rest) =>
      let n : Int := Text.ofDigits digits
      some (some (if negative then -n else n), rest)

/-- An exponent, if there is one. -/
def readExponent : List Char → Option (Option Int × List Char)
  | e :: rest =>
      if e = 'e' ∨ e = 'E' then
        match rest with
        | '-' :: rest => readExponentDigits true rest
        | '+' :: rest => readExponentDigits false rest
        | rest => readExponentDigits false rest
      else some (none, e :: rest)
  | [] => some (none, [])

/-- **A number after its sign.** -/
def readNumber (negative : Bool) (cs : List Char) : Option (Number × List Char) := do
  let (whole, rest) ← readWhole cs
  let (places, rest) ← readPlaces rest
  let (exponent, rest) ← readExponent rest
  match places, exponent with
  | [], none => return (wholeNumber negative whole, rest)
  | places, exponent => return (fractionNumber negative whole places (exponent.getD 0), rest)

/-! ## Tokens -/

/-- White space between tokens. -/
def isSpace (c : Char) : Bool := c = ' ' ∨ c = '\n' ∨ c = '\t' ∨ c = '\r'

/-- **The first token of a text that does not start with white space**, and what follows it. -/
def readToken : List Char → Token × List Char
  | [] => (.bad, [])
  | '[' :: rest => (.openArray, rest)
  | ']' :: rest => (.closeArray, rest)
  | '\x7b' :: rest => (.openObject, rest)
  | '\x7d' :: rest => (.closeObject, rest)
  | ',' :: rest => (.comma, rest)
  | ':' :: rest => (.colon, rest)
  | 'n' :: 'u' :: 'l' :: 'l' :: rest => (.scalar .null, rest)
  | 't' :: 'r' :: 'u' :: 'e' :: rest => (.scalar (.bool true), rest)
  | 'f' :: 'a' :: 'l' :: 's' :: 'e' :: rest => (.scalar (.bool false), rest)
  | '"' :: rest =>
      match readString rest with
      | some (units, rest) => (.scalar (stringValue units), rest)
      | none => (.bad, [])
  | '-' :: rest =>
      match readNumber true rest with
      | some (number, rest) => (.scalar (.number number), rest)
      | none => (.bad, [])
  | c :: rest =>
      match readNumber false (c :: rest) with
      | some (number, rest) => (.scalar (.number number), rest)
      | none => (.bad, [])

/-- **The tokens of a text.**  The first place that is no token ends the list. -/
def tokensFrom : Nat → List Char → List Token
  | 0, _ => []
  | bound + 1, cs =>
      match cs.dropWhile isSpace with
      | [] => []
      | c :: rest =>
          match readToken (c :: rest) with
          | (.bad, _) => [.bad]
          | (token, rest) => token :: tokensFrom bound rest

/-- The tokens of a text; each takes at least one character. -/
def tokens (cs : List Char) : List Token := tokensFrom cs.length cs

end AliasHoist.Json
