import AliasHoist.Runs.Error
import AliasHoist.Runs.Run
import AliasHoist.Text.Search
import AliasHoist.World

/-!
# The index of runs

All runs are listed in one file of the state directory, each under its identifier.

## Main Definitions

* `RunIndex`: runs by identifier, with `find?`, `add`, `newestFirst`;
* `writeAtomically`: writes a file through another one beside it;
* `RunIndex.load`, `RunIndex.save`: reading and writing the index;
* `RunIndex.loadOrReset`: reading it, or starting a new one when its format is another.
-/

namespace AliasHoist

/-- **Runs by identifier.** -/
structure RunIndex where
  runs : List (String × Run)
  deriving DecidableEq, Repr

namespace RunIndex

/-- The index without runs. -/
def empty : RunIndex := { runs := [] }

/-- The run with an identifier. -/
def find? (index : RunIndex) (id : String) : Option Run := index.runs.lookup id

/-- The index with one more run; a run with the same identifier gives way. -/
def add (index : RunIndex) (run : Run) : RunIndex :=
  { runs := Json.putEntry run.id run index.runs }

/-- The index with the status of a run changed. -/
def setStatus (index : RunIndex) (id : String) (status : RunStatus) : RunIndex :=
  { runs := index.runs.map fun (key, run) =>
      if key == id then (key, { run with status }) else (key, run) }

/-- The runs, the latest first. -/
def newestFirst (index : RunIndex) : List Run :=
  (index.runs.map (·.2)).mergeSort fun a b => !a.time.before b.time

/-- The stored form of an index. -/
def toJson (index : RunIndex) : Json.Value :=
  .object [("runs", .object (index.runs.map fun (id, run) => (id, run.toJson)))]

/-- The fields of a stored index. -/
def record (source : Json.DataSource) : Json.RecordType where
  name := "RunsIndex"
  fields := [("runs", Json.checked (Json.mapOf (Run.decode source)))]

/-- **Reads a stored index.** -/
def decode (source : Json.DataSource) : Json.Decoder RunIndex := fun value => do
  let members ← Json.recordMembers source (record source) value
  return { runs := ← Json.requiredField members "runs" (Json.mapOf (Run.decode source)) }

/-! ## The file of the index -/

/-- The file of the index. -/
def file (state : Path) : Path := state.child "runs.json"

/-- The file to which an index of another format is moved. -/
def asideFile (state : Path) : Path := state.child "runs.json.bak"

/-- **The index of a state directory.**  Without a file it is empty. -/
def load (state : Path) (fs : FileSystem) : Except RunError RunIndex :=
  if !fs.exists? (file state) then .ok empty
  else
    match fs.readText (file state) with
    | .error reason => .error (.readIndex reason)
    | .ok text => (Json.decodeText (decode .text) text).mapError .parseIndex

/-- Whether an error is that of an index of another format. -/
def isOtherFormat (error : RunError) : Bool := Text.isPartOf "missing field" error.message

/-- **The index of a state directory, or a new one** when the file has another format; that file is
then moved aside. -/
def loadOrReset (state : Path) : Task RunError RunIndex := do
  match load state (← Task.files) with
  | .ok index => return index
  | .error error =>
      if isOtherFormat error then
        Task.log .warn "incompatible runs index from a previous version; starting a new one"
          [("index", (file state).text), ("moved_to", (asideFile state).text)]
        Task.change (·.rename (file state) (asideFile state)) (.moveAside (file state))
        return empty
      else throw error

end RunIndex

/-- **Writes a file through another one beside it**, so that it is never half written. -/
def writeAtomically (path : Path) (text : String) : Task RunError Unit := do
  let beside := path.append ".tmp"
  Task.writeText beside text (.createFile beside)
  Task.change (·.rename beside path) (.moveIntoPlace beside)

/-- Writes the index. -/
def RunIndex.save (index : RunIndex) (state : Path) : Task RunError Unit := do
  Task.makeDirectories state .files
  writeAtomically (file state) index.toJson.pretty

end AliasHoist
