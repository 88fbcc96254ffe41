import AliasHoist.Console.Log
import AliasHoist.FileSystem.Access

/-!
# Worlds and tasks

A task does something with files and tells about it.  When it fails, what it has done so far stays
done.

## Main Definitions

* `Console`: what has been printed and logged;
* `World`: files and console;
* `Task`: something to do in a world, which may fail;
* `print`, `report`, `log`: telling about it;
* `ask`, `change`, `makeDirectories`: working with files.
-/

namespace AliasHoist

/-- Something on the error output: a line of text, or one of the log. -/
inductive Notice where
  | line (text : String)
  | log (line : LogLine)
  deriving DecidableEq, Repr

namespace Notice

/-- The text of a notice, if it is shown. -/
def text? (verbose : Bool) : Notice → Option String
  | line text => some text
  | log entry => if entry.level.isShown verbose then some entry.text else none

end Notice

/-- What a program has said. -/
structure Console where
  /-- The text on the standard output. -/
  output : String := ""
  /-- What is on the error output, in order. -/
  notices : List Notice := []
  deriving DecidableEq, Repr

namespace Console

/-- The text on the error output. -/
def errors (console : Console) (verbose : Bool) : String :=
  String.join ((console.notices.filterMap (Notice.text? verbose)).map (· ++ "\n"))

end Console

/-- Files, and what has been said about them. -/
structure World where
  files : FileSystem
  console : Console := {}
  deriving DecidableEq, Repr

/-- **Something to do in a world.**  An error leaves the world as it is at that point. -/
abbrev Task (ε α : Type) := EStateM ε World α

namespace Task

variable {ε α : Type}

/-! ## Telling -/

/-- Puts a text on the standard output. -/
def printText (text : String) : Task ε Unit :=
  modify fun world =>
    { world with console := { world.console with output := world.console.output ++ text } }

/-- Puts a line on the standard output. -/
def print (line : String) : Task ε Unit := printText (line ++ "\n")

/-- Puts a notice on the error output. -/
def notify (notice : Notice) : Task ε Unit :=
  modify fun world =>
    { world with console := { world.console with notices := world.console.notices ++ [notice] } }

/-- Puts a line on the error output. -/
def report (line : String) : Task ε Unit := notify (.line line)

/-- Logs a message with named values. -/
def log (level : LogLevel) (message : String) (values : List (String × String)) : Task ε Unit :=
  notify (.log { level, message, values })

/-- Logs some lines. -/
def logLines : List LogLine → Task ε Unit
  | [] => pure ()
  | line :: rest => do
      notify (.log line)
      logLines rest

/-! ## Files -/

/-- The files as they are. -/
def files : Task ε FileSystem := do return (← get).files

/-- Something that the files tell. -/
def ask {δ : Type} (question : FileSystem → Except δ α) (failure : δ → ε) : Task ε α := do
  match question (← files) with
  | .ok answer => return answer
  | .error reason => throw (failure reason)

/-- **Changes the files.** -/
def change (f : FileSystem → Except IoError FileSystem) (failure : IoError → ε) :
    Task ε Unit := do
  match f (← files) with
  | .ok fs => modify fun world => { world with files := fs }
  | .error reason => throw (failure reason)

/-- Changes the files by something that may fail half way. -/
def changePartly (f : FileSystem → FileSystem × Except IoError Unit) (failure : IoError → ε) :
    Task ε Unit := do
  let (fs, outcome) := f (← files)
  modify fun world => { world with files := fs }
  match outcome with
  | .ok () => return
  | .error reason => throw (failure reason)

/-- Makes a directory and the directories on the way to it. -/
def makeDirectories (path : Path) (failure : IoError → ε) : Task ε Unit :=
  changePartly (·.makeDirectories path) failure

/-- Writes a text to a file. -/
def writeText (path : Path) (text : String) (failure : IoError → ε) : Task ε Unit :=
  change (·.write path (.text text)) failure

end Task

end AliasHoist
