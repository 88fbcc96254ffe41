import AliasHoist.Text.Digits
import AliasHoist.Text.Hex
import AliasHoist.Time.Calendar
import AliasHoist.Toml.Value

/-!
# TOML strings, numbers and dates

Readers of the TOML values without parts.  A reader takes what belongs to its value from the start
of a text and gives back the rest; it fails when the text does not start with such a value.
-/

namespace AliasHoist.Toml

open Text

/-- Reads something from the start of a text. -/
abbrev Reader (α : Type) := List Char → Option (α × List Char)

/-! ## Characters -/

/-- A blank within a line. -/
def isBlankChar (c : Char) : Bool := c = ' ' || c = '\t'

/-- The text after blanks. -/
def skipBlanks (cs : List Char) : List Char := cs.dropWhile isBlankChar

/-- A character that can stand in a comment or a literal string: no control character but the
tab. -/
def isPlain (c : Char) : Bool := c = '\t' || (32 ≤ c.toNat && c.toNat != 127)

/-- The text after the end of a line. -/
def afterNewline? : List Char → Option (List Char)
  | '\n' :: rest => some rest
  | '\r' :: '\n' :: rest => some rest
  | _ => none

/-- The text after blanks and line ends. -/
def skipLines : Nat → List Char → List Char
  | 0, cs => cs
  | bound + 1, cs =>
      match afterNewline? (skipBlanks cs) with
      | some rest => skipLines bound rest
      | none => skipBlanks cs

/-! ## Strings -/

/-- The character that a hexadecimal number of a width names. -/
def readHexChar (width : Nat) : Reader Char := fun cs => do
  let digits ← (cs.take width).mapM hexValue?
  if digits.length = width then
    let code := digits.foldl (fun n d => 16 * n + d) 0
    if code < 0xD800 ∨ (0xE000 ≤ code ∧ code < 0x110000) then
      return (Char.ofNat code, cs.drop width)
    else none
  else none

/-- The character of an escape, after the backslash. -/
def readEscape : Reader Char
  | 'b' :: rest => some ('\x08', rest)
  | 't' :: rest => some ('\t', rest)
  | 'n' :: rest => some ('\n', rest)
  | 'f' :: rest => some ('\x0c', rest)
  | 'r' :: rest => some ('\r', rest)
  | '"' :: rest => some ('"', rest)
  | '\\' :: rest => some ('\\', rest)
  | 'u' :: rest => readHexChar 4 rest
  | 'U' :: rest => readHexChar 8 rest
  | _ => none

/-- The rest of a string between single quotes. -/
def readLiteral : List Char → List Char → Option (List Char × List Char)
  | _, [] => none
  | read, c :: rest =>
      if c = '\x27' then some (read.reverse, rest)
      else if isPlain c then readLiteral (c :: read) rest
      else none

/-- The rest of a string between double quotes, with a bound on its length. -/
def readBasic : Nat → List Char → List Char → Option (List Char × List Char)
  | 0, _, _ => none
  | _ + 1, _, [] => none
  | bound + 1, read, c :: rest =>
      if c = '"' then some (read.reverse, rest)
      else if c = '\\' then
        match readEscape rest with
        | some (char, rest) => readBasic bound (char :: read) rest
        | none => none
      else if isPlain c then readBasic bound (c :: read) rest
      else none

/-- The end of a string over several lines: three quotes, before which one or two more may belong to
the string. -/
def closingQuotes? (mark : Char) (cs : List Char) : Option (List Char × List Char) :=
  let run := (cs.takeWhile (· = mark)).length
  if run < 3 then none
  else
    let inside := min (run - 3) 2
    some (List.replicate inside mark, cs.drop (inside + 3))

/-- The rest of a string over several lines, with a bound on its length.  Line ends are line feeds,
and a backslash at the end of a line joins it with the next text. -/
def readLong (mark : Char) : Nat → List Char → List Char → Option (List Char × List Char)
  | 0, _, _ => none
  | _ + 1, _, [] => none
  | bound + 1, read, c :: rest =>
      match closingQuotes? mark (c :: rest) with
      | some (inside, rest) => some (read.reverse ++ inside, rest)
      | none =>
          match afterNewline? (c :: rest) with
          | some rest => readLong mark bound ('\n' :: read) rest
          | none =>
              if c = '\\' && mark = '"' then
                match readEscape rest with
                | some (char, rest) => readLong mark bound (char :: read) rest
                | none =>
                    match afterNewline? (skipBlanks rest) with
                    | some rest => readLong mark bound read (skipLines rest.length rest)
                    | none => none
              else if isPlain c then readLong mark bound (c :: read) rest
              else none

/-- A line end right after the opening quotes does not count. -/
def skipFirstNewline (cs : List Char) : List Char := (afterNewline? cs).getD cs

/-- **A string.** -/
def readText : Reader String
  | '"' :: '"' :: '"' :: rest =>
      (readLong '"' (rest.length + 1) [] (skipFirstNewline rest)).map fun (s, rest) =>
        (String.ofList s, rest)
  | '\x27' :: '\x27' :: '\x27' :: rest =>
      (readLong '\x27' (rest.length + 1) [] (skipFirstNewline rest)).map fun (s, rest) =>
        (String.ofList s, rest)
  | '"' :: rest =>
      (readBasic (rest.length + 1) [] rest).map fun (s, rest) => (String.ofList s, rest)
  | '\x27' :: rest => (readLiteral [] rest).map fun (s, rest) => (String.ofList s, rest)
  | _ => none

/-! ## Numbers -/

/-- The digits of a class at the start of a text, with single underscores between them. -/
def readRun (isDigit : Char → Bool) : List Char → List Char × List Char
  | [] => ([], [])
  | c :: '_' :: d :: rest =>
      if !isDigit c then ([], c :: '_' :: d :: rest)
      else if !isDigit d then ([c], '_' :: d :: rest)
      else
        let (digits, after) := readRun isDigit (d :: rest)
        (c :: digits, after)
  | c :: rest =>
      if !isDigit c then ([], c :: rest)
      else
        let (digits, after) := readRun isDigit rest
        (c :: digits, after)

/-- A digit of base two or eight. -/
def isDigitBelow (base : Nat) (c : Char) : Bool := c.isDigit && digitValue c < base

/-- The number of some digits in a base. -/
def inBase (base : Nat) (digits : List Char) : Nat :=
  digits.foldl (fun n c => base * n + (hexValue? c).getD 0) 0

/-- An integer of at most 64 bits. -/
def integerValue? (i : Int) : Option Value :=
  if -0x8000000000000000 ≤ i ∧ i < 0x8000000000000000 then some (.integer i) else none

/-- An integer after the sign of its base. -/
def readBased (base : Nat) (isDigit : Char → Bool) : Reader Value := fun cs =>
  match readRun isDigit cs with
  | ([], _) => none
  | (digits, rest) => (integerValue? (inBase base digits)).map fun v => (v, rest)

/-- A sign, if there is one. -/
def readSign : List Char → Bool × List Char
  | '-' :: rest => (true, rest)
  | '+' :: rest => (false, rest)
  | cs => (false, cs)

/-- The digits of a whole number: no zero in front of others. -/
def readWholeDigits : Reader (List Char) := fun cs =>
  match readRun Char.isDigit cs with
  | ([], _) => none
  | ('0' :: _ :: _, _) => none
  | (digits, rest) => some (digits, rest)

/-- The digits after a point. -/
def readPlaces : Reader (List Char)
  | '.' :: rest =>
      match readRun Char.isDigit rest with
      | ([], _) => none
      | (digits, rest) => some (digits, rest)
  | _ => none

/-- An exponent. -/
def readPower : Reader Int
  | c :: rest =>
      if c = 'e' || c = 'E' then
        let (negative, rest) := readSign rest
        match readRun Char.isDigit rest with
        | ([], _) => none
        | (digits, rest) =>
            let n : Int := ofDigits digits
            some (if negative then -n else n, rest)
      else none
  | [] => none

/-- The floating-point number nearest to a decimal.  Exponents far beyond the range of such numbers
count as the ends of the range. -/
def nearestFloat (negative : Bool) (digits : Nat) (exponent : Int) : Float :=
  let size :=
    if digits = 0 then 0.0
    else if 100000 < exponent then 1.0 / 0.0
    else if exponent < -100000 then 0.0
    else if 0 ≤ exponent then Float.ofScientific digits false exponent.toNat
    else Float.ofScientific digits true exponent.natAbs
  if negative then -size else size

/-- A number with a point or an exponent.  Numbers too large to represent are refused, except for
those below zero, which count as negative infinity. -/
def readFloat : Reader Value := fun cs => do
  let (negative, rest) := readSign cs
  let (whole, rest) ← readWholeDigits rest
  let (places, exponent, rest) ← match readPlaces rest with
    | some (places, rest) =>
        match readPower rest with
        | some (exponent, rest) => some (places, exponent, rest)
        | none => some (places, 0, rest)
    | none => (readPower rest).map fun (exponent, rest) => ([], exponent, rest)
  let x := nearestFloat negative (ofDigits (whole ++ places)) (exponent - places.length)
  if x == 1.0 / 0.0 then none else some (.float x, rest)

/-- The numbers that have names. -/
def readSpecial : Reader Value := fun cs =>
  let (negative, rest) := readSign cs
  match rest with
  | 'i' :: 'n' :: 'f' :: rest =>
      some (.float (if negative then -(1.0 / 0.0) else 1.0 / 0.0), rest)
  | 'n' :: 'a' :: 'n' :: rest => some (.float (0.0 / 0.0), rest)
  | _ => none

/-- A whole number. -/
def readInteger : Reader Value
  | '0' :: 'x' :: rest => readBased 16 (fun c => (hexValue? c).isSome) rest
  | '0' :: 'o' :: rest => readBased 8 (isDigitBelow 8) rest
  | '0' :: 'b' :: rest => readBased 2 (isDigitBelow 2) rest
  | cs => do
      let (negative, rest) := readSign cs
      let (digits, rest) ← readWholeDigits rest
      let n : Int := ofDigits digits
      let value ← integerValue? (if negative then -n else n)
      some (value, rest)

/-! ## Dates and times -/

/-- A number of exactly so many digits. -/
def readFixed (width : Nat) : Reader Nat := fun cs =>
  let digits := cs.take width
  if digits.length = width && digits.all Char.isDigit then some (ofDigits digits, cs.drop width)
  else none

/-- A given character. -/
def readChar (c : Char) : Reader Unit
  | d :: rest => if c = d then some ((), rest) else none
  | [] => none

/-- A date that exists. -/
def readDay : Reader Unit := fun cs => do
  let (year, rest) ← readFixed 4 cs
  let ((), rest) ← readChar '-' rest
  let (month, rest) ← readFixed 2 rest
  let ((), rest) ← readChar '-' rest
  let (day, rest) ← readFixed 2 rest
  if (Date.mk year month day).isValid then some ((), rest) else none

/-- A time of day. -/
def readClock : Reader Unit := fun cs => do
  let (hour, rest) ← readFixed 2 cs
  let ((), rest) ← readChar ':' rest
  let (minute, rest) ← readFixed 2 rest
  let ((), rest) ← readChar ':' rest
  let (second, rest) ← readFixed 2 rest
  if 24 ≤ hour ∨ 60 ≤ minute ∨ 60 < second then none
  else
    match rest with
    | '.' :: rest =>
        match spanDigits rest with
        | ([], _) => none
        | (_, rest) => some ((), rest)
    | rest => some ((), rest)

/-- The distance from universal time. -/
def readZone : Reader Unit
  | c :: rest =>
      if c = 'Z' || c = 'z' then some ((), rest)
      else if c = '+' || c = '-' then do
        let (hour, rest) ← readFixed 2 rest
        let ((), rest) ← readChar ':' rest
        let (minute, rest) ← readFixed 2 rest
        if hour < 24 ∧ minute < 60 then some ((), rest) else none
      else none
  | [] => none

/-- A date with the time and zone that may follow it, or a time alone. -/
def readDateTime : Reader Value := fun cs =>
  match readDay cs with
  | some ((), rest) =>
      match rest with
      | c :: after =>
          if c = 'T' || c = 't' || c = ' ' then
            match readClock after with
            | some ((), rest) =>
                match readZone rest with
                | some ((), rest) => some (.dateTime, rest)
                | none => some (.dateTime, rest)
            | none => some (.dateTime, c :: after)
          else some (.dateTime, c :: after)
      | [] => some (.dateTime, [])
  | none => (readClock cs).map fun ((), rest) => (.dateTime, rest)

/-- **A value without parts.** -/
def readScalar : Reader Value
  | 't' :: 'r' :: 'u' :: 'e' :: rest => some (.bool true, rest)
  | 'f' :: 'a' :: 'l' :: 's' :: 'e' :: rest => some (.bool false, rest)
  | cs =>
      ((readText cs).map fun (s, rest) => (.text s, rest)).or
        ((readDateTime cs).or ((readFloat cs).or ((readSpecial cs).or (readInteger cs))))

end AliasHoist.Toml
