import AliasHoist.Json.Decode
import AliasHoist.Json.Print
import AliasHoist.Path
import AliasHoist.Time.Parse

/-!
# Runs

A run is one time that files were fixed in place.  It is recorded with what is needed to undo it.

## Main Definitions

* `FileChange`: one file that a run has rewritten;
* `Run`: a run, with `toJson` and `decode` for storage.
-/

namespace AliasHoist

/-- **One file that a run has rewritten.** -/
structure FileChange where
  path : Path
  /-- The digest of the content before the run. -/
  hashBefore : String
  /-- The digest of the content after the run. -/
  hashAfter : String
  /-- The name of the copy of the content before the run. -/
  backup : String
  fixesApplied : Nat
  deriving DecidableEq, Repr

/-- Whether the changes of a run are in force. -/
inductive RunStatus where
  | applied
  | reverted
  deriving DecidableEq, Repr

/-- **A run.** -/
structure Run where
  id : String
  time : Timestamp
  /-- The command line of the run. -/
  command : String
  rule : String
  changes : List FileChange
  status : RunStatus
  canRevert : Bool
  deriving DecidableEq, Repr

namespace RunStatus

/-- The name of a status. -/
def label : RunStatus → String
  | applied => "applied"
  | reverted => "reverted"

/-- The status of a name. -/
def ofLabel? : String → Option RunStatus
  | "applied" => some applied
  | "reverted" => some reverted
  | _ => none

theorem ofLabel?_label (status : RunStatus) : ofLabel? status.label = some status := by
  cases status <;> rfl

/-- A name as a status. -/
def named (name : String) : Except DecodeError RunStatus :=
  match ofLabel? name with
  | some status => .ok status
  | none => .error (.unknownVariant name ["applied", "reverted"])

/-- Nothing, which may stand beside the name of a status. -/
def nothing : Json.Decoder Unit
  | .null => .ok ()
  | value => .error (Json.unexpected value "unit")

/-- **Reads a status**: its name, or an object with its name as the only key and nothing under
it. -/
def decode (source : Json.DataSource) : Json.Decoder RunStatus
  | .text name => named name
  | .object members =>
      match source, members with
      | .text, [] | .text, ("", .malformed) :: _ => .error .malformed
      | .text, (name, value) :: rest => do
          let status ← named name
          nothing value
          if rest.isEmpty then .ok status else .error .malformed
      | .value, [(name, value)] => do
          let status ← named name
          nothing value
          return status
      | .value, _ => .error (.invalidValue .map "map with a single key")
  | value =>
      match source with
      | .text => .error .malformed
      | .value => .error (Json.unexpected value "string or map")

end RunStatus

namespace FileChange

/-- The stored form of a change. -/
def toJson (change : FileChange) : Json.Value :=
  .object [
    ("path", .text change.path.text),
    ("hash_before", .text change.hashBefore),
    ("hash_after", .text change.hashAfter),
    ("backup", .text change.backup),
    ("fixes_applied", .nat change.fixesApplied)]

/-- A path. -/
def pathDecoder : Json.Decoder Path := fun value => do
  return { text := ← Json.textAs "path string" value }

/-- The fields of a stored change. -/
def record : Json.RecordType where
  name := "FileModification"
  fields := [
    ("path", Json.checked pathDecoder),
    ("hash_before", Json.checked Json.text),
    ("hash_after", Json.checked Json.text),
    ("backup", Json.checked Json.text),
    ("fixes_applied", Json.checked Json.natural)]

/-- **Reads a stored change.** -/
def decode (source : Json.DataSource) : Json.Decoder FileChange := fun value => do
  let members ← Json.recordMembers source record value
  let path ← Json.requiredField members "path" pathDecoder
  let hashBefore ← Json.requiredField members "hash_before" Json.text
  let hashAfter ← Json.requiredField members "hash_after" Json.text
  let backup ← Json.requiredField members "backup" Json.text
  let fixesApplied ← Json.requiredField members "fixes_applied" Json.natural
  return { path, hashBefore, hashAfter, backup, fixesApplied }

end FileChange

namespace Run

/-- The number of fixes in a run, which is counted in 64 bits. -/
def fixesApplied (run : Run) : Nat :=
  run.changes.foldl (fun count change => count + change.fixesApplied) 0 % UInt64.size

/-- The stored form of a run. -/
def toJson (run : Run) : Json.Value :=
  .object [
    ("run_id", .text run.id),
    ("timestamp", .text run.time.text),
    ("command", .text run.command),
    ("rule", .text run.rule),
    ("files_modified", .array (run.changes.map FileChange.toJson)),
    ("status", .text run.status.label),
    ("can_revert", .bool run.canRevert)]

/-- A point in time. -/
def timeDecoder : Json.Decoder Timestamp := fun value => do
  match Timestamp.ofText? (← Json.textAs "an RFC 3339 formatted date and time string" value) with
  | some time => return time
  | none => throw .badTimestamp

/-- The fields of a stored run. -/
def record (source : Json.DataSource) : Json.RecordType where
  name := "RunMetadata"
  fields := [
    ("run_id", Json.checked Json.text),
    ("timestamp", Json.checked timeDecoder),
    ("command", Json.checked Json.text),
    ("rule", Json.checked Json.text),
    ("files_modified", Json.checked (Json.listOf (FileChange.decode source))),
    ("status", Json.checked (RunStatus.decode source)),
    ("can_revert", Json.checked Json.bool)]

/-- **Reads a stored run.** -/
def decode (source : Json.DataSource) : Json.Decoder Run := fun value => do
  let members ← Json.recordMembers source (record source) value
  let id ← Json.requiredField members "run_id" Json.text
  let time ← Json.requiredField members "timestamp" timeDecoder
  let command ← Json.requiredField members "command" Json.text
  let rule ← Json.requiredField members "rule" Json.text
  let changes ← Json.requiredField members "files_modified"
    (Json.listOf (FileChange.decode source))
  let status ← Json.requiredField members "status" (RunStatus.decode source)
  let canRevert ← Json.requiredField members "can_revert" Json.bool
  return { id, time, command, rule, changes, status, canRevert }

end Run

end AliasHoist
