import AliasHoist.Command.Run
import AliasHoist.Tree.Table

/-!
# The program

Loads the files that a command line may be about, carries the command line out on them, and stores
what has changed.

The environment variable `TS_HOIST_TREES` names a file with the parses of the sources, since the
grammar's parser is not part of this program.
-/

namespace AliasHoist.Main

/-- The names in a path. -/
def locationOf (path : String) : Location := FileSystem.pathNames { text := path }

/-- Everything at a path of the machine and below it.  What cannot be read is left out. -/
partial def loadFrom (path : String) : IO (List (Location × Entry)) := do
  try
    let place ← IO.FS.realPath path
    if ← place.isDir then
      let children ← place.readDir
      let below ← children.toList.mapM fun child => loadFrom child.path.toString
      return (locationOf place.toString, .directory) :: below.flatten
    else
      let bytes ← IO.FS.readBinFile place
      return [(locationOf place.toString, .file (.ofBytes bytes.data.toList) true)]
  catch _ => return []

/-- A file system with entries and the directories around them. -/
def addEntries (fs : FileSystem) (entries : List (Location × Entry)) : FileSystem :=
  entries.foldl (fun fs (location, entry) =>
    let above := (List.range location.length).map location.take
    let missing := above.filter fun place => (fs.entryAt? place).isNone
    (missing.foldl (FileSystem.put · · .directory) fs).put location entry) fs

/-- Stores what is at a location. -/
def storeEntry (location : Location) : Entry → IO Unit
  | .directory => IO.FS.createDirAll (FileSystem.pathOf location).text
  | .file content _ =>
      IO.FS.writeBinFile (FileSystem.pathOf location).text ⟨content.bytes.toArray⟩

/-- Removes what is at a location. -/
def removeEntry (location : Location) : Entry → IO Unit
  | .directory => IO.FS.removeDir (FileSystem.pathOf location).text
  | .file _ _ => IO.FS.removeFile (FileSystem.pathOf location).text

/-- Stores the differences between two file systems. -/
def storeChanges (before after : FileSystem) : IO Unit := do
  for (location, entry) in before.entries.mergeSort fun a b => b.1.length ≤ a.1.length do
    if (after.entryAt? location).isNone then removeEntry location entry
  for (location, entry) in after.entries.mergeSort fun a b => a.1.length ≤ b.1.length do
    if before.entryAt? location != some entry then storeEntry location entry

/-- The time, which is that of a file made now. -/
def currentTime : IO Timestamp := do
  let (_, path) ← IO.FS.createTempFile
  let time := (← path.metadata).modified
  IO.FS.removeFile path
  return { seconds := time.sec, nanos := time.nsec.toNat }

/-- A new identifier for a run: seven hexadecimal digits. -/
def newRunId : IO String := do
  let bytes ← IO.getRandomBytes 16
  return String.ofList ((Blake3.hexDigest bytes.data.toList).toList.take 7)

/-- The parser, from a file with parses. -/
def loadParser : IO Parser := do
  match ← IO.getEnv "TS_HOIST_TREES" with
  | none => return Forest.parser { parses := [] }
  | some path =>
      match Json.decodeText Forest.decode (← IO.FS.readFile path) with
      | .ok forest => return forest.parser
      | .error reason => throw (IO.userError reason.message)

/-- What commands need to know. -/
def environment : IO Command.Environment := do
  let home := (← IO.getEnv "HOME").getD "/"
  let share := (← IO.getEnv "XDG_DATA_HOME").getD (home ++ "/.local/share")
  return {
    parse := ← loadParser
    chosenState := (← IO.getEnv "TS_HOIST_STATE_DIR").map Path.mk
    dataDirectory := { text := share }
    now := ← currentTime
    nextRunId := ← newRunId }

/-- The files that a command line may be about. -/
def loadFiles (environment : Command.Environment) (arguments : List String) : IO FileSystem := do
  let here := (← IO.currentDir).toString
  let empty : FileSystem := { workingDirectory := locationOf here, entries := [] }
  let state := environment.stateDirectory false empty
  let entries ← (here :: state.text :: arguments).mapM loadFrom
  return addEntries empty entries.flatten

/-- **Carries a command line out.** -/
def run (arguments : List String) : IO UInt32 := do
  let environment ← environment
  let files ← loadFiles environment arguments
  let finished := Command.runCommandLine environment arguments { files }
  storeChanges files finished.world.files
  IO.print finished.world.console.output
  IO.eprint (finished.world.console.errors finished.verbose)
  return finished.status.toUInt32

end AliasHoist.Main

/-- Carries a command line out. -/
def main (arguments : List String) : IO UInt32 := AliasHoist.Main.run arguments
