import AliasHoist.Runs.Store

/-!
# Undoing runs

A run is undone by bringing back the content that each of its files had before.

## Main Definitions

* `checkRevertible`: whether a run can be undone;
* `undoRun`: undoing a run that can be undone;
* `revertRun`: undoing a run.
-/

namespace AliasHoist

/-- Whether a file still is as a run left it. -/
def checkUnchanged (id : String) (fs : FileSystem) (change : FileChange) : Except RunError Unit :=
  if !fs.exists? change.path then .error (.fileMissing change.path)
  else
    match fileDigest change.path fs with
    | .error error => .error error
    | .ok current =>
        if current = change.hashAfter then .ok ()
        else .error (.fileChanged change.path id change.hashAfter current)

/-- Whether all files still are as a run left them. -/
def checkAllUnchanged (id : String) (fs : FileSystem) : List FileChange → Except RunError Unit
  | [] => .ok ()
  | change :: rest => do
      checkUnchanged id fs change
      checkAllUnchanged id fs rest

/-- Whether a run can be undone. -/
def checkRevertible (run : Run) (id : String) (force : Bool) (fs : FileSystem) :
    Except RunError Unit :=
  if run.status = .reverted then .error (.alreadyReverted id)
  else if !run.canRevert then .error (.notRevertible id)
  else if force then .ok ()
  else checkAllUnchanged id fs run.changes

/-- Brings the contents of files back, one after the other. -/
def restoreAll (id : String) (state : Path) : List FileChange → Task RunError Unit
  | [] => pure ()
  | change :: rest => do
      restoreBackup change id state
      Task.print ("  ✓ Restored: " ++ change.path.text)
      restoreAll id state rest

/-- A run that has been undone.  The date and the changes stay, so that the run is listed like before. -/
def Run.undone (run : Run) : Run := { run with status := .reverted, canRevert := false }

/-- Undoes a run that can be undone: the contents of its files are brought back, and it is marked. -/
def undoRun (id : String) (state : Path) (run : Run) : Task RunError Unit := do
  Task.print ("Reverting " ++ toString run.changes.length ++ " file(s)...")
  restoreAll id state run.changes
  run.undone.save state
  Task.log .info "run reverted" [("run_id", Text.quoted id), ("files", toString run.changes.length)]
  Task.print ("✓ Run " ++ id ++ " reverted successfully")

/-- **Undoes a run.**  Unless forced, it does so only when no file has changed since. -/
def revertRun (id : String) (force : Bool) (state : Path) : Task RunError Unit := do
  let run ← Task.ask (Run.load id state) (·)
  Task.ask (checkRevertible run id force) (·)
  undoRun id state run

end AliasHoist
