import AliasHoist.Diff.Lines
import AliasHoist.Diff.Script

/-!
# Compact edit scripts

A change that could stand in several places is moved as far down as possible, and changes that touch
each other are joined.

## Main Definitions

* `Cursor`: a step with the steps before and after it;
* `shiftUp`, `shiftDown`: move the step at a cursor past kept lines that repeat it, swap it with a
  change of the other kind, or join it with one of its own kind;
* `compact`: all deletions moved, then all insertions.

## Design Notes

Only insertions move past kept lines; a deletion stops there.  The steps before the cursor are
listed nearest first.
-/

namespace AliasHoist.Diff

/-- A step with the steps before it, nearest first, and the steps after it. -/
structure Cursor where
  before : List Step
  here : Step
  after : List Step
  deriving DecidableEq, Repr

variable {α : Type} [DecidableEq α] (old new : List α)

/-- A bound on the moves past a list of steps. -/
def stepLoad : List Step → Nat
  | [] => 0
  | step :: rest => step.length + 1 + stepLoad rest

/-- How far a change can move up past kept lines: as far as its last new lines repeat them.  A
deletion has no new lines, so it stays. -/
def overlapUp (kept here : Step) : Nat := commonSuffix (kept.oldLines old) (here.newLines new)

/-- How far a change can move down past kept lines: as far as its first new lines repeat them. -/
def overlapDown (kept here : Step) : Nat := commonPrefix (kept.oldLines old) (here.newLines new)

theorem overlapUp_le {old new : List α} {kept here : Step} (h : kept.kind = .keep) :
    overlapUp old new kept here ≤ kept.length := by
  have := commonSuffix_le_left (kept.oldLines old) (here.newLines new)
  have bound : (kept.oldLines old).length ≤ kept.length := by
    simp only [Step.oldLines, Step.oldLength, h]
    exact List.length_take_le _ _
  unfold overlapUp
  omega

theorem overlapDown_le {old new : List α} {kept here : Step} (h : kept.kind = .keep) :
    overlapDown old new kept here ≤ kept.length := by
  have := commonPrefix_le_left (kept.oldLines old) (here.newLines new)
  have bound : (kept.oldLines old).length ≤ kept.length := by
    simp only [Step.oldLines, Step.oldLength, h]
    exact List.length_take_le _ _
  unfold overlapDown
  omega

/-- The steps after an insertion that moves up past the end of kept lines: those lines now follow
it. -/
def keepAfter (kept here : Step) (n : Nat) : List Step → List Step
  | next :: rest =>
      if next.kind = .keep then next.growLeft n :: rest
      else
        { kind := .keep, oldIndex := kept.oldIndex + kept.length - n
          newIndex := here.newIndex + here.length - n, length := n } :: next :: rest
  | [] =>
      [{ kind := .keep, oldIndex := kept.oldIndex + kept.length - n
         newIndex := here.newIndex + here.length - n, length := n }]

/-- The steps before an insertion that moves down past the beginning of kept lines, nearest
first. -/
def keepBefore (kept here : Step) (n : Nat) : List Step → List Step
  | previous :: rest =>
      if previous.kind = .keep then previous.growRight n :: rest
      else
        { kind := .keep, oldIndex := kept.oldIndex, newIndex := here.newIndex, length := n } ::
          previous :: rest
  | [] => [{ kind := .keep, oldIndex := kept.oldIndex, newIndex := here.newIndex, length := n }]

/-- What is left of kept lines, unless nothing is. -/
def unlessEmpty (step : Step) (rest : List Step) : List Step :=
  if step.length = 0 then rest else step :: rest

theorem stepLoad_unlessEmpty_le (step : Step) (rest : List Step) :
    stepLoad (unlessEmpty step rest) ≤ step.length + 1 + stepLoad rest := by
  unfold unlessEmpty
  split <;> simp [stepLoad]

/-- **Moves a change up.** -/
def shiftUp (before : List Step) (here : Step) (after : List Step) : Cursor :=
  match before with
  | [] => { before := [], here, after }
  | previous :: rest =>
      if _k : previous.kind = .keep then
        if _h : 0 < overlapUp old new previous here then
          shiftUp (unlessEmpty (previous.dropEnd (overlapUp old new previous here)) rest)
            (here.shiftLeft (overlapUp old new previous here))
            (keepAfter previous here (overlapUp old new previous here) after)
        else if previous.length = 0 then shiftUp rest here after
        else { before, here, after }
      else if previous.kind = here.kind then shiftUp rest (previous.growRight here.length) after
      else shiftUp rest here (previous :: after)
termination_by stepLoad before
decreasing_by
  · have := stepLoad_unlessEmpty_le (previous.dropEnd (overlapUp old new previous here)) rest
    have bound : overlapUp old new previous here ≤ previous.length := overlapUp_le _k
    simp only [Step.dropEnd, stepLoad] at *
    omega
  all_goals simp only [stepLoad]; omega

/-- **Moves a change down.** -/
def shiftDown (before : List Step) (here : Step) (after : List Step) : Cursor :=
  match after with
  | [] => { before, here, after := [] }
  | next :: rest =>
      if _k : next.kind = .keep then
        if _h : 0 < overlapDown old new next here then
          shiftDown (keepBefore next here (overlapDown old new next here) before)
            (here.shiftRight (overlapDown old new next here))
            (unlessEmpty (next.dropFront (overlapDown old new next here)) rest)
        else if next.length = 0 then shiftDown before here rest
        else { before, here, after }
      else if next.kind = here.kind then shiftDown before (here.growRight next.length) rest
      else shiftDown (next :: before) here rest
termination_by stepLoad after
decreasing_by
  · have := stepLoad_unlessEmpty_le (next.dropFront (overlapDown old new next here)) rest
    have bound : overlapDown old new next here ≤ next.length := overlapDown_le _k
    simp only [Step.dropFront, stepLoad] at *
    omega
  all_goals simp only [stepLoad]; omega

/-- Moves a change up and then down. -/
def settle (cursor : Cursor) : Cursor :=
  let up := shiftUp old new cursor.before cursor.here cursor.after
  shiftDown old new up.before up.here up.after

/-- The number of steps of a kind. -/
def countKind (kind : StepKind) (steps : List Step) : Nat :=
  steps.countP fun step => step.kind = kind

theorem countKind_keepAfter (kind : StepKind) (h : kind ≠ .keep) (kept here : Step) (n : Nat)
    (steps : List Step) : countKind kind (keepAfter kept here n steps) = countKind kind steps := by
  unfold keepAfter countKind
  split
  · split <;> simp_all [Step.growLeft, Step.shiftLeft, List.countP_cons]
    all_goals simp [Ne.symm h]
  · simp [Ne.symm h]

theorem countKind_unlessEmpty_le (kind : StepKind) (step : Step) (rest : List Step) :
    countKind kind (unlessEmpty step rest) ≤ countKind kind (step :: rest) := by
  unfold unlessEmpty countKind
  split
  · simp [List.countP_cons]
  · simp

@[simp] theorem kind_shiftLeft (step : Step) (n : Nat) : (step.shiftLeft n).kind = step.kind := rfl

@[simp] theorem kind_shiftRight (step : Step) (n : Nat) :
    (step.shiftRight n).kind = step.kind := rfl

@[simp] theorem kind_growRight (step : Step) (n : Nat) : (step.growRight n).kind = step.kind := rfl

@[simp] theorem kind_dropFront (step : Step) (n : Nat) : (step.dropFront n).kind = step.kind := rfl

theorem countKind_cons_of_ne {kind : StepKind} {step : Step} (h : step.kind ≠ kind)
    (rest : List Step) : countKind kind (step :: rest) = countKind kind rest := by
  simp [countKind, h]

theorem countKind_le_cons (kind : StepKind) (step : Step) (rest : List Step) :
    countKind kind rest ≤ countKind kind (step :: rest) := by
  simp [countKind, List.countP_cons]

/-- A change keeps its kind when it moves up. -/
theorem kind_shiftUp (before : List Step) (here : Step) (after : List Step) :
    (shiftUp old new before here after).here.kind = here.kind := by
  fun_induction shiftUp old new before here after <;> simp_all

/-- Moving a change up brings no change of its kind behind it. -/
theorem countKind_shiftUp_le {kind : StepKind} (before : List Step) (here : Step)
    (after : List Step) (same : here.kind = kind) (h : kind ≠ .keep) :
    countKind kind (shiftUp old new before here after).after ≤ countKind kind after := by
  fun_induction shiftUp old new before here after with
  | case1 => simp
  | case2 here after previous rest k pos ih =>
      have := ih (by simpa using same)
      rwa [countKind_keepAfter _ h] at this
  | case3 here after previous rest k pos empty ih => exact ih same
  | case4 => simp
  | case5 here after previous rest k joined ih => exact ih (by simp [joined, same])
  | case6 here after previous rest k other ih =>
      have := ih same
      rwa [countKind_cons_of_ne (by rwa [← same])] at this

/-- Moving a change down brings no change of its kind behind it. -/
theorem countKind_shiftDown_le {kind : StepKind} (before : List Step) (here : Step)
    (after : List Step) (same : here.kind = kind) (h : kind ≠ .keep) :
    countKind kind (shiftDown old new before here after).after ≤ countKind kind after := by
  fun_induction shiftDown old new before here after with
  | case1 => simp
  | case2 before here next rest k pos ih =>
      have other : next.kind ≠ kind := fun e => h (e ▸ k)
      have le := countKind_unlessEmpty_le kind
        (next.dropFront (overlapDown old new next here)) rest
      rw [countKind_cons_of_ne (by simpa using other)] at le
      rw [countKind_cons_of_ne other]
      exact Nat.le_trans (ih (by simpa using same)) le
  | case3 before here next rest k pos empty ih =>
      exact Nat.le_trans (ih same) (countKind_le_cons kind next rest)
  | case4 => simp
  | case5 before here next rest k joined ih =>
      exact Nat.le_trans (ih (by simpa using same)) (countKind_le_cons kind next rest)
  | case6 before here next rest k other ih =>
      exact Nat.le_trans (ih same) (countKind_le_cons kind next rest)

/-- Settles all changes of a kind, one after the other; the steps before are listed nearest
first. -/
def settleAll (kind : StepKind) (before after : List Step) : List Step :=
  match after with
  | [] => before.reverse
  | step :: rest =>
      if _h : step.kind = kind ∧ kind ≠ .keep then
        let cursor := settle old new { before, here := step, after := rest }
        settleAll kind (cursor.here :: cursor.before) cursor.after
      else settleAll kind (step :: before) rest
termination_by (countKind kind after, after.length)
decreasing_by
  · apply Prod.Lex.left
    have up := countKind_shiftUp_le old new before step rest _h.1 _h.2
    have down := countKind_shiftDown_le old new (shiftUp old new before step rest).before
      (shiftUp old new before step rest).here (shiftUp old new before step rest).after
      ((kind_shiftUp old new before step rest).trans _h.1) _h.2
    have more : countKind kind (step :: rest) = countKind kind rest + 1 := by
      simp [countKind, _h.1]
    simp only [settle]
    omega
  · by_cases same : step.kind = kind
    · apply Prod.Lex.left
      simp [countKind, same]
    · have : countKind kind (step :: rest) = countKind kind rest := by
        simp [countKind, same]
      rw [this]
      apply Prod.Lex.right
      simp

/-- **The compact form of an edit script.** -/
def compact (steps : List Step) : List Step :=
  settleAll old new .insert [] (settleAll old new .delete [] steps)

end AliasHoist.Diff
