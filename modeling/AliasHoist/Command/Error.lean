import AliasHoist.Config
import AliasHoist.Editor
import AliasHoist.Glob.Pattern
import AliasHoist.Runs.Error

/-!
# What can go wrong with commands

Commands fail for these reasons.  A reason may have another one behind it.
-/

namespace AliasHoist.Command

/-- **Why a command fails.** -/
inductive CommandError where
  | config (reason : ConfigError)
  | pattern (reason : Glob.PatternError)
  | readFile (path : Path) (reason : IoError)
  | parseFile (path : Path) (reason : ParseError)
  | fixFile (path : Path) (reason : FixError)
  | writeFile (path : Path) (reason : IoError)
  | resolvePath (path : Path) (reason : IoError)
  | run (reason : RunError)
  /-- One output file cannot take the fixes of so many files. -/
  | outputForFiles (count : Nat)
  | filesNotFixed (count : Nat)
  deriving DecidableEq, Repr

namespace CommandError

/-- What went wrong, followed by what lies behind it. -/
def messages : CommandError → List String
  | config reason => reason.message :: reason.cause?.toList
  | pattern reason => ["Failed to parse glob pattern", reason.message]
  | readFile path reason => ["Failed to read " ++ path.text, reason.message]
  | parseFile path reason => ["Failed to parse " ++ path.text, reason.message]
  | fixFile path reason => ["Failed to fix " ++ path.text, reason.message]
  | writeFile path reason => ["Failed to write " ++ path.text, reason.message]
  | resolvePath path reason => ["Failed to resolve " ++ path.text, reason.message]
  | run reason => reason.messages
  | outputForFiles count =>
      ["--output requires exactly one input file, got " ++ toString count]
  | filesNotFixed count => [toString count ++ " file(s) could not be fixed"]

/-- All messages on one line. -/
def inline (error : CommandError) : String := ": ".intercalate error.messages

/-- A text with all its lines indented. -/
def indented (text : String) : String :=
  String.ofList (text.toList.flatMap fun c => if c = '\n' then "\n    ".toList else [c])

/-- **The last words of a command**: what went wrong, and below it what lies behind it. -/
def report (error : CommandError) : String :=
  match error.messages with
  | [] => "Error: "
  | [message] => "Error: " ++ message
  | message :: causes =>
      "Error: " ++ message ++ "\n\nCaused by:" ++
        String.join (causes.map fun cause => "\n    " ++ indented cause)

end CommandError

end AliasHoist.Command
