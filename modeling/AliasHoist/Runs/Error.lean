import AliasHoist.Decode.Error
import AliasHoist.FileSystem.Basic

/-!
# What can go wrong with runs

Recording, undoing and forgetting runs can fail for these reasons.
-/

namespace AliasHoist

/-- **Why an operation on runs fails.** -/
inductive RunError where
  /-- A file operation failed, with nothing to add. -/
  | files (reason : IoError)
  | hashFile (path : Path) (reason : IoError)
  | createFile (path : Path) (reason : IoError)
  | moveIntoPlace (path : Path) (reason : IoError)
  | readIndex (reason : IoError)
  | parseIndex (reason : DecodeError)
  | moveAside (path : Path) (reason : IoError)
  | backUp (path : Path) (reason : IoError)
  | readBackup (path : Path) (reason : IoError)
  | restore (path : Path) (reason : IoError)
  | unknownRun (id : String)
  | readRun (reason : IoError)
  | parseRun (reason : DecodeError)
  | alreadyReverted (id : String)
  | notRevertible (id : String)
  | fileMissing (path : Path)
  | fileChanged (path : Path) (id expected current : String)
  /-- So many days ago the calendar has no date. -/
  | beyondCalendar (days : Nat)
  deriving DecidableEq, Repr

namespace RunError

/-- What went wrong, in words. -/
def message : RunError → String
  | files reason => reason.message
  | hashFile path _ => "Failed to read file for hashing: " ++ path.text
  | createFile path _ => "Failed to create " ++ path.text
  | moveIntoPlace path _ => "Failed to move " ++ path.text ++ " into place"
  | readIndex _ => "Failed to read runs index"
  | parseIndex reason => "Failed to parse runs index: " ++ reason.message
  | moveAside path _ => "Failed to move aside " ++ path.text
  | backUp path _ => "Failed to back up " ++ path.text
  | readBackup path _ => "Failed to read backup: " ++ path.text
  | restore path _ => "Failed to write restored file: " ++ path.text
  | unknownRun id => "Run " ++ id ++ " not found"
  | readRun _ => "Failed to read run metadata"
  | parseRun _ => "Failed to parse run metadata"
  | alreadyReverted id => "Run " ++ id ++ " has already been reverted"
  | notRevertible id => "Run " ++ id ++ " cannot be reverted"
  | fileMissing path => "File " ++ path.text ++ " no longer exists (use --force to ignore)"
  | fileChanged path id expected current =>
      "File " ++ path.text ++ " has changed since run " ++ id ++
        " (use --force to ignore)\nExpected hash: " ++ expected ++ "\nCurrent hash: " ++ current
  | beyondCalendar days => "no date is " ++ toString days ++ " days ago"

/-- What lies behind it, in words. -/
def cause? : RunError → Option String
  | hashFile _ reason | createFile _ reason | moveIntoPlace _ reason | readIndex reason
  | moveAside _ reason | backUp _ reason | readBackup _ reason | restore _ reason
  | readRun reason => some reason.message
  | parseRun reason => some reason.message
  | _ => none

/-- The message with what lies behind it. -/
def messages (error : RunError) : List String := error.message :: error.cause?.toList

end RunError

end AliasHoist
