import AliasHoist.Runs.Store

/-!
# Forgetting runs

Old runs are forgotten with their files and backups.

## Main Definitions

* `forgetRun`: removing the backups of a run and its file;
* `cleanRunsIn`: forgetting old runs, the runs of the index being gone through in some order;
* `cleanRuns`: the same in the order of the index.

## Design Notes

An index is a table of runs, and what goes through a table may meet its entries in any order.  So the
order is an argument of `cleanRunsIn`: what holds of it whatever the order is cannot hang on the way in
which an index happens to be written down.
-/

namespace AliasHoist

/-- Removes the backups of a run, if there are any. -/
def removeBackups (id : String) (state : Path) : Task RunError Unit := do
  if (← Task.files).exists? (state.child id) then
    Task.changePartly (·.removeDirectory (state.child id)) .files

/-- Removes the file of a run, if there is one. -/
def removeRecord (id : String) (state : Path) : Task RunError Unit := do
  if (← Task.files).exists? (runFile id state) then
    Task.change (·.removeFile (runFile id state)) .files

/-- **Removes the backups and the file of a run**, in this order: a failure at the backups leaves the
run with its file. -/
def forgetRun (id : String) (state : Path) : Task RunError Unit := do
  removeBackups id state
  removeRecord id state

/-- Removes all of some runs. -/
def forgetRuns (state : Path) : List Run → Task RunError Unit
  | [] => pure ()
  | run :: rest => do
      forgetRun run.id state
      forgetRuns state rest

/-- What is left to do once old runs have been told apart: the old ones are removed, and the index is
made anew from the others. -/
def forgetOld (state : Path) (old kept : List Run) : Task RunError Nat := do
  forgetRuns state old
  RunIndex.save (kept.foldl RunIndex.add .empty) state
  return old.length

/-- **Forgets the runs from before some days ago**, the runs of the index being gone through in a given
order; how many they were. -/
def cleanRunsIn (order : List Run → List Run) (keepDays : Nat) (now : Timestamp) (state : Path) :
    Task RunError Nat := do
  let index ← RunIndex.loadOrReset state
  match now.minusDays? keepDays with
  | none => throw (.beyondCalendar keepDays)
  | some cutoff => do
      let (old, kept) := (order (index.runs.map (·.2))).partition (·.time.before cutoff)
      forgetOld state old kept

/-- **Forgets the runs from before some days ago**; how many they were. -/
def cleanRuns (keepDays : Nat) (now : Timestamp) (state : Path) : Task RunError Nat :=
  cleanRunsIn (fun runs => runs) keepDays now state

end AliasHoist
