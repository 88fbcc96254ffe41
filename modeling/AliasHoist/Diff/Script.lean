/-!
# Edit scripts

An edit script turns one sequence of lines into another.  Its steps keep lines, delete lines of the
old sequence or insert lines of the new one.

## Main Definitions

* `Step`: a step with its place in either sequence and its length;
* `Step.oldLines`, `Step.newLines`: the lines that a step is about.

## Design Notes

A deletion also knows its place in the new sequence, and an insertion its place in the old one.
These places are only used to name the position of a change; reordering steps does not update them.
-/

namespace AliasHoist.Diff

/-- What a step does. -/
inductive StepKind where
  | keep
  | delete
  | insert
  deriving DecidableEq, Repr

/-- A step of an edit script. -/
structure Step where
  kind : StepKind
  oldIndex : Nat
  newIndex : Nat
  length : Nat
  deriving DecidableEq, Repr

namespace Step

/-- The number of old lines that a step is about. -/
def oldLength (step : Step) : Nat := if step.kind = .insert then 0 else step.length

/-- The number of new lines that a step is about. -/
def newLength (step : Step) : Nat := if step.kind = .delete then 0 else step.length

/-- The old lines that a step is about. -/
def oldLines {α : Type} (old : List α) (step : Step) : List α :=
  (old.drop step.oldIndex).take step.oldLength

/-- The new lines that a step is about. -/
def newLines {α : Type} (new : List α) (step : Step) : List α :=
  (new.drop step.newIndex).take step.newLength

/-- The step moved towards the beginning. -/
def shiftLeft (step : Step) (n : Nat) : Step :=
  { step with oldIndex := step.oldIndex - n, newIndex := step.newIndex - n }

/-- The step moved towards the end. -/
def shiftRight (step : Step) (n : Nat) : Step :=
  { step with oldIndex := step.oldIndex + n, newIndex := step.newIndex + n }

/-- The step with more lines in front. -/
def growLeft (step : Step) (n : Nat) : Step :=
  { step.shiftLeft n with length := step.length + n }

/-- The step with more lines at its end. -/
def growRight (step : Step) (n : Nat) : Step := { step with length := step.length + n }

/-- The step without some lines at its end. -/
def dropEnd (step : Step) (n : Nat) : Step := { step with length := step.length - n }

/-- The step without some lines in front. -/
def dropFront (step : Step) (n : Nat) : Step :=
  { step.shiftRight n with length := step.length - n }

end Step

end AliasHoist.Diff
