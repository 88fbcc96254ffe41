import AliasHoist.Diff.Lines
import AliasHoist.Diff.Script

/-!
# Shortest edit scripts

The divide-and-conquer algorithm of Myers.  Two searches run towards each other, one from the
beginning of the two sequences and one from their end.  Where they meet, both sequences are cut, and
the two halves are treated in the same way.

## Main Definitions

* `Runner`: how far a search has come in either sequence, with what lies ahead;
* `advance`: all runners after one more change;
* `middle?`: where the two searches meet;
* `diff`: the edit script.

## Design Notes

A *frontier* lists the runners that got farthest with a given number of changes, one for each
diagonal `x - y`, from the largest diagonal down.  Diagonals of a frontier are two apart, so a
frontier of the next number has one runner between every two neighbours and one at each end.  The
two searches can only meet on a common diagonal.
-/

namespace AliasHoist.Diff

/-- A place in the old and in the new sequence. -/
structure Point where
  x : Nat
  y : Nat
  deriving DecidableEq, Repr

/-- The diagonal of a point. -/
def Point.diagonal (point : Point) : Int := (point.x : Int) - point.y

/-- **How far a search has come**, with the lines that lie ahead of it. -/
structure Runner (α : Type) where
  point : Point
  old : List α
  new : List α

namespace Runner

variable {α : Type}

/-- One more line of the old sequence passed over. -/
def right (runner : Runner α) : Runner α where
  point := { runner.point with x := runner.point.x + 1 }
  old := runner.old.drop 1
  new := runner.new

/-- One more line of the new sequence passed over. -/
def down (runner : Runner α) : Runner α where
  point := { runner.point with y := runner.point.y + 1 }
  old := runner.old
  new := runner.new.drop 1

/-- Follows common lines. -/
def follow [DecidableEq α] (runner : Runner α) : Runner α :=
  let n := commonPrefix runner.old runner.new
  { point := { x := runner.point.x + n, y := runner.point.y + n }
    old := runner.old.drop n
    new := runner.new.drop n }

end Runner

/-- A stretch of common lines on the way of a search. -/
structure Snake (α : Type) where
  start : Point
  stop : Runner α

section Search

variable {α : Type} [DecidableEq α]

/-- The runners of the next frontier after the first: between two neighbours the farther one wins,
and the last runner comes from the last neighbour. -/
def nextRunners (upper : Runner α) : List (Runner α) → List (Runner α)
  | [] => [upper.down]
  | lower :: rest =>
      (if lower.point.x < upper.point.x then upper.down else lower.right) :: nextRunners lower rest

/-- The runners that one more change brings about. -/
def advance (first : Runner α) : List (Runner α) → List (Runner α)
  | [] => [first]
  | runner :: rest => runner.right :: nextRunners runner rest

/-- **A search, one change farther.** -/
def pursue (first : Runner α) (frontier : List (Runner α)) : List (Snake α) :=
  (advance first frontier).map fun runner => { start := runner.point, stop := runner.follow }

/-- The point of a frontier on a diagonal. -/
def onDiagonal? (frontier : Array Point) (diagonal : Int) : Option Point :=
  (frontier[(((frontier.size : Int) - 1 - diagonal) / 2).toNat]?).filter (·.diagonal == diagonal)

/-- Whether a point of one search lies beyond the point of the other on the same diagonal, in
sequences of the given lengths. -/
def passes (n m : Nat) (opposite : Array Point) (point : Point) : Bool :=
  (onDiagonal? opposite ((n : Int) - m - point.diagonal)).any fun other => n ≤ point.x + other.x

/-- The first stretch of a search that passes the other search. -/
def meeting? (n m : Nat) (snakes : List (Snake α)) (opposite : List (Runner α)) :
    Option (Snake α) :=
  let points := (opposite.map (·.point)).toArray
  snakes.find? fun snake => passes n m points snake.stop.point

/-- The searches after some changes, with a bound on the changes still to be made. -/
def middleFrom? (n m : Nat) (first last : Runner α) :
    Nat → List (Runner α) → List (Runner α) → Option Point
  | 0, _, _ => none
  | bound + 1, front, back =>
      let ahead := pursue first front
      match meeting? n m ahead back with
      | some snake => some snake.start
      | none =>
          let front := ahead.map (·.stop)
          let behind := pursue last back
          match meeting? n m behind front with
          | some snake => some { x := n - snake.stop.point.x, y := m - snake.stop.point.y }
          | none => middleFrom? n m first last bound front (behind.map (·.stop))

/-- The runner at the beginning of two sequences. -/
def Runner.start (old new : List α) : Runner α := { point := { x := 0, y := 0 }, old, new }

/-- **Where the two searches meet.**  Half the number of lines bounds the changes of each.  The
search from the end sees both sequences reversed. -/
def middle? (old new : List α) : Option Point :=
  let n := old.length
  let m := new.length
  middleFrom? n m (.start old new) (.start old.reverse new.reverse) ((n + m + 1) / 2 + 1) [] []

end Search

/-- A step that keeps lines, unless there are none. -/
def keepStep (oldIndex newIndex length : Nat) : List Step :=
  if length = 0 then [] else [{ kind := .keep, oldIndex, newIndex, length }]

/-- A step that deletes lines. -/
def deleteStep (oldIndex newIndex length : Nat) : Step :=
  { kind := .delete, oldIndex, newIndex, length }

/-- A step that inserts lines. -/
def insertStep (oldIndex newIndex length : Nat) : Step :=
  { kind := .insert, oldIndex, newIndex, length }

/-- Whether a point cuts two sequences into smaller ones. -/
def Point.cuts (point : Point) (n m : Nat) : Bool :=
  0 < point.x + point.y && point.x + point.y < n + m && point.x ≤ n && point.y ≤ m

/-- **The edit script between two sequences** that start at the given places. -/
def diff {α : Type} [DecidableEq α] (i j : Nat) (old new : List α) : List Step :=
  let front := commonPrefix old new
  let old' := old.drop front
  let new' := new.drop front
  let back := commonSuffix old' new'
  let old'' := old'.take (old'.length - back)
  let new'' := new'.take (new'.length - back)
  let i' := i + front
  let j' := j + front
  let changes :=
    if old''.isEmpty && new''.isEmpty then []
    else if new''.isEmpty then [deleteStep i' j' old''.length]
    else if old''.isEmpty then [insertStep i' j' new''.length]
    else
      match middle? old'' new'' with
      | some point =>
          if _h : point.cuts old''.length new''.length then
            diff i' j' (old''.take point.x) (new''.take point.y) ++
              diff (i' + point.x) (j' + point.y) (old''.drop point.x) (new''.drop point.y)
          else [deleteStep i' j' old''.length, insertStep i' j' new''.length]
      | none => [deleteStep i' j' old''.length, insertStep i' j' new''.length]
  keepStep i j front ++ changes ++
    keepStep (i' + old''.length) (j' + new''.length) back
termination_by old.length + new.length
decreasing_by
  all_goals
    simp only [Point.cuts, Bool.and_eq_true, decide_eq_true_eq, List.length_take, List.length_drop,
      old'', new'', old', new', front, back] at *
    omega

end AliasHoist.Diff
