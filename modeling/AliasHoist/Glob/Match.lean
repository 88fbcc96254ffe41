import AliasHoist.Glob.Pattern

/-!
# Matching glob patterns

Whether a text is one of those that a pattern stands for.  A star also stands for slashes.

## Main Definitions

* `Glob.matchesTokens`: matching, by recursion on the pattern;
* `Glob.Pattern.matches`: the same for a whole pattern.
-/

namespace AliasHoist.Glob

/-- Whether a character lies in one of some ranges. -/
def inRanges (ranges : List CharRange) (c : Char) : Bool :=
  ranges.any fun range => range.first ≤ c && c ≤ range.last

/-- Whether a token stands for a single character. -/
def Token.accepts (token : Token) (c : Char) : Bool :=
  match token with
  | char d => c == d
  | anyChar => true
  | oneOf ranges => inRanges ranges c
  | noneOf ranges => !inRanges ranges c
  | anySequence | anyComponents => false

/-- The ends of a text, from the whole text to the empty one. -/
def ends : List Char → List (List Char)
  | [] => [[]]
  | c :: rest => (c :: rest) :: ends rest

/-- The ends of a text that follow a slash. -/
def endsAfterSlash : List Char → List (List Char)
  | [] => []
  | c :: rest => if c = '/' then rest :: endsAfterSlash rest else endsAfterSlash rest

/-- **Whether a text is one of those that some tokens stand for.**  Any number of components means
nothing, everything up to a slash, or everything. -/
def matchesTokens : List Token → List Char → Bool
  | [], cs => cs.isEmpty
  | .anySequence :: rest, cs => (ends cs).any (matchesTokens rest)
  | .anyComponents :: rest, cs => (cs :: endsAfterSlash cs ++ [[]]).any (matchesTokens rest)
  | _ :: _, [] => false
  | token :: rest, c :: cs => token.accepts c && matchesTokens rest cs

/-- Whether a text is one of those that a pattern stands for. -/
def Pattern.matches (pattern : Pattern) (text : String) : Bool :=
  matchesTokens pattern.tokens text.toList

end AliasHoist.Glob
