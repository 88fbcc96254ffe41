import AliasHoist.Runs.Index

/-!
# The history of runs

A listing of the latest runs, one on a line.
-/

namespace AliasHoist

/-- The blanks that fill a text up to a width. -/
def filling (width : Nat) (text : String) : String :=
  String.ofList (List.replicate (width - text.length) ' ')

/-- A text filled up with blanks on its right. -/
def padRight (width : Nat) (text : String) : String := text ++ filling width text

/-- A text filled up with blanks on its left. -/
def padLeft (width : Nat) (text : String) : String := filling width text ++ text

/-- A text cut to a length, with dots in the place of what is missing. -/
def shortened (length : Nat) (text : String) : String :=
  if text.length ≤ length then text else String.ofList (text.toList.take (length - 3)) ++ "..."

/-- What can be said about the state of a run. -/
def Run.statusText (run : Run) : String :=
  match run.status with
  | .applied => if run.canRevert then "[can revert]" else "[applied]"
  | .reverted => "[reverted]"

/-- The number of files in a run. -/
def Run.filesText (run : Run) : String :=
  if run.changes.length = 1 then "1 file" else toString run.changes.length ++ " files"

/-- The line of a run. -/
def Run.line (run : Run) : String :=
  "  ".intercalate [run.id, run.time.shortText, padRight 24 (shortened 24 run.rule),
    padRight 10 run.filesText, padLeft 3 (toString run.fixesApplied) ++ " fixes", run.statusText]

/-- The listing of some of the runs. -/
def historyText (limit : Nat) (runs : List Run) : String :=
  if runs.isEmpty then "No runs found\n"
  else
    "Recent runs (showing up to " ++ toString limit ++ "):\n\n" ++
      String.join ((runs.take limit).map (·.line ++ "\n"))

/-- **Lists the latest runs.** -/
def showHistory (limit : Nat) (state : Path) : Task RunError Unit := do
  let index ← RunIndex.loadOrReset state
  Task.printText (historyText limit index.newestFirst)

end AliasHoist
