/-!
# Glob patterns

A glob pattern stands for a set of texts: `?` for any character, `*` for any characters, `[ab]` and
`[!ab]` for one of some characters or any other, and `**` for any number of path components.

## Main Definitions

* `Glob.Token`: a part of a pattern;
* `Glob.Pattern.parse`: the pattern that a text spells, or where it goes wrong.
-/

namespace AliasHoist.Glob

/-- The characters from one to another. -/
structure CharRange where
  first : Char
  last : Char
  deriving DecidableEq, Repr

/-- A part of a pattern. -/
inductive Token where
  | char (c : Char)
  | anyChar
  | anySequence
  | anyComponents
  | oneOf (ranges : List CharRange)
  | noneOf (ranges : List CharRange)
  deriving DecidableEq, Repr

/-- What is wrong with a pattern. -/
inductive Fault where
  | wildcards
  | recursiveWildcards
  | invalidRange
  deriving DecidableEq, Repr

/-- What is wrong with a pattern, and near which character. -/
structure PatternError where
  position : Nat
  fault : Fault
  deriving DecidableEq, Repr

namespace PatternError

/-- The fault in words. -/
def message (error : PatternError) : String :=
  "Pattern syntax error near position " ++ toString error.position ++ ": " ++
    match error.fault with
    | .wildcards => "wildcards are either regular `*` or recursive `**`"
    | .recursiveWildcards => "recursive wildcards must form a single path component"
    | .invalidRange => "invalid range pattern"

end PatternError

/-- The ranges that the text between brackets lists. -/
def charRanges : List Char → List CharRange
  | [] => []
  | first :: '-' :: last :: rest => ⟨first, last⟩ :: charRanges rest
  | c :: rest => ⟨c, c⟩ :: charRanges rest

/-- The rest of a set after its opening bracket: its token and what follows its closing bracket.  A
closing bracket that comes first belongs to the set. -/
def readSet : List Char → Option (Token × List Char)
  | '!' :: first :: rest =>
      match rest.dropWhile (· != ']') with
      | [] => none
      | _ :: after => some (.noneOf (charRanges (first :: rest.takeWhile (· != ']'))), after)
  | '!' :: [] => none
  | first :: rest =>
      match rest.dropWhile (· != ']') with
      | [] => none
      | _ :: after => some (.oneOf (charRanges (first :: rest.takeWhile (· != ']'))), after)
  | [] => none

/-- The tokens of a pattern from a position on, with a bound on their number.  The tokens before it
are listed last first. -/
def parseFrom : Nat → Nat → Option Char → List Token → List Char →
    Except PatternError (List Token)
  | 0, _, _, read, _ => .ok read.reverse
  | _ + 1, _, _, read, [] => .ok read.reverse
  | bound + 1, position, previous, read, c :: rest =>
      if c = '?' then parseFrom bound (position + 1) (some c) (.anyChar :: read) rest
      else if c = '*' then
        let stars := (rest.takeWhile (· = '*')).length + 1
        let after := rest.dropWhile (· = '*')
        if stars = 1 then parseFrom bound (position + 1) (some c) (.anySequence :: read) rest
        else if 2 < stars then .error ⟨position + 2, .wildcards⟩
        else if previous ≠ none ∧ previous ≠ some '/' then
          .error ⟨position - 1, .recursiveWildcards⟩
        else
          let read :=
            if 1 < read.length ∧ read.head? = some .anyComponents then read
            else .anyComponents :: read
          match after with
          | [] => .ok read.reverse
          | '/' :: after => parseFrom bound (position + 3) (some '/') read after
          | _ => .error ⟨position + 2, .recursiveWildcards⟩
      else if c = '[' then
        match readSet rest with
        | none => .error ⟨position, .invalidRange⟩
        | some (token, after) =>
            parseFrom bound (position + (rest.length - after.length) + 1) (some ']')
              (token :: read) after
      else parseFrom bound (position + 1) (some c) (.char c :: read) rest

/-- A compiled pattern. -/
structure Pattern where
  tokens : List Token
  deriving DecidableEq, Repr

namespace Pattern

/-- **The pattern that a text spells.** -/
def parse (text : String) : Except PatternError Pattern :=
  (parseFrom text.toList.length 0 none [] text.toList).map fun tokens => { tokens }

/-- Whether a pattern stands for any number of path components. -/
def isRecursive (pattern : Pattern) : Bool := pattern.tokens.contains .anyComponents

/-- The text that a pattern without wildcards stands for. -/
def literal? (pattern : Pattern) : Option String :=
  (pattern.tokens.mapM fun
    | Token.char c => some c
    | _ => none).map String.ofList

end Pattern

end AliasHoist.Glob
