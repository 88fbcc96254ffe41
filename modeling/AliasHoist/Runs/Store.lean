import AliasHoist.Digest.Blake3
import AliasHoist.Runs.Index

/-!
# Recorded runs

A run is recorded in a file of its own and in the index.  The contents that it replaced are kept in
a directory named after it.

## Main Definitions

* `contentDigest`: the digest by which contents are compared;
* `saveBackup`, `restoreBackup`: keeping a content and bringing it back;
* `Run.save`, `Run.load`: recording a run and finding it again.
-/

namespace AliasHoist

/-- The digest of a content. -/
def contentDigest (content : Content) : String := Blake3.hexDigest content.bytes

/-- The digest of the content of a file. -/
def fileDigest (path : Path) (fs : FileSystem) : Except RunError String :=
  match fs.read path with
  | .ok content => .ok (contentDigest content)
  | .error reason => .error (.hashFile path reason)

/-! ## Backups -/

/-- The name of the backup of a file: the digest of its path, and its extension. -/
def backupName (path : Path) : String :=
  let digest := contentDigest (.text path.text)
  match path.extension? with
  | some ext => digest ++ "." ++ ext
  | none => digest

/-- **Keeps the content of a file** in the directory of a run; the name of the copy. -/
def saveBackup (path : Path) (text : String) (id : String) (state : Path) :
    Task RunError String := do
  let directory := state.child id
  Task.makeDirectories directory .files
  let name := backupName path
  Task.writeText (directory.child name) text (.backUp path)
  return name

/-- **Brings the content of a file back.** -/
def restoreBackup (change : FileChange) (id : String) (state : Path) : Task RunError Unit := do
  let backup := (state.child id).child change.backup
  let text ← Task.ask (·.readText backup) (.readBackup backup)
  Task.writeText change.path text (.restore change.path)

/-! ## Records -/

/-- The file of a run. -/
def runFile (id : String) (state : Path) : Path := state.child (id ++ ".json")

/-- **Records a run** in its file and in the index. -/
def Run.save (run : Run) (state : Path) : Task RunError Unit := do
  Task.makeDirectories state .files
  writeAtomically (runFile run.id state) run.toJson.pretty
  let index ← Task.ask (RunIndex.load state) (·)
  (index.add run).save state

/-- **The run with an identifier.** -/
def Run.load (id : String) (state : Path) (fs : FileSystem) : Except RunError Run :=
  if !fs.exists? (runFile id state) then .error (.unknownRun id)
  else
    match fs.readText (runFile id state) with
    | .error reason => .error (.readRun reason)
    | .ok text => (Json.decodeText (Run.decode .text) text).mapError .parseRun

end AliasHoist
