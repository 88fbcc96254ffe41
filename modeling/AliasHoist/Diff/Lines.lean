/-!
# Lines of a text

A line ends after a line feed, after a carriage return, or after the two in this order.  Lines keep
their ends, and a text that does not end with one has a last line without.
-/

namespace AliasHoist.Diff

/-- A line with its end. -/
abbrev Line := List Char

/-- **The lines of a text.** -/
def splitLines : List Char → List Line
  | [] => []
  | '\r' :: '\n' :: rest => ['\r', '\n'] :: splitLines rest
  | c :: rest =>
      if c = '\n' ∨ c = '\r' then [c] :: splitLines rest
      else
        match splitLines rest with
        | [] => [[c]]
        | line :: lines => (c :: line) :: lines

/-- Whether a line has its end. -/
def endsLine (line : Line) : Bool :=
  line.getLast? == some '\n' || line.getLast? == some '\r'

/-- The length of the common beginning of two lists. -/
def commonPrefix {α : Type} [DecidableEq α] : List α → List α → Nat
  | a :: as, b :: bs => if a = b then commonPrefix as bs + 1 else 0
  | _, _ => 0

/-- The length of the common end of two lists. -/
def commonSuffix {α : Type} [DecidableEq α] (as bs : List α) : Nat :=
  commonPrefix as.reverse bs.reverse

theorem commonPrefix_le_left {α : Type} [DecidableEq α] (as bs : List α) :
    commonPrefix as bs ≤ as.length := by
  fun_induction commonPrefix as bs <;> simp_all

theorem commonPrefix_le_right {α : Type} [DecidableEq α] (as bs : List α) :
    commonPrefix as bs ≤ bs.length := by
  fun_induction commonPrefix as bs <;> simp_all

theorem commonSuffix_le_left {α : Type} [DecidableEq α] (as bs : List α) :
    commonSuffix as bs ≤ as.length := by
  simpa [commonSuffix] using commonPrefix_le_left as.reverse bs.reverse

theorem commonSuffix_le_right {α : Type} [DecidableEq α] (as bs : List α) :
    commonSuffix as bs ≤ bs.length := by
  simpa [commonSuffix] using commonPrefix_le_right as.reverse bs.reverse

end AliasHoist.Diff
