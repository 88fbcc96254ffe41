import AliasHoist.Text.CodePoints

/-!
# White space

The Unicode property `White_Space`.  Time stamps may have such characters between their parts.
-/

namespace AliasHoist.Text

/-- The runs of code points with the property `White_Space`. -/
def blankRuns : List (Nat × Nat) := [
  (0x9, 0xd), (0x20, 0x20), (0x85, 0x85), (0xa0, 0xa0), (0x1680, 0x1680), (0x2000, 0x200a),
  (0x2028, 0x2029), (0x202f, 0x202f), (0x205f, 0x205f), (0x3000, 0x3000)]

/-- Whether a character is white space. -/
def isBlank (c : Char) : Bool := inRuns blankRuns c.toNat

/-- A text without its leading white space. -/
def trimBlank (cs : List Char) : List Char := cs.dropWhile isBlank


end AliasHoist.Text
