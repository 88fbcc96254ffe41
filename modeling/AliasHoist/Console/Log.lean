/-!
# Log lines

What the program tells about its own work.  A line has a level, a message and named values.
-/

namespace AliasHoist

/-- How much a log line matters. -/
inductive LogLevel where
  | debug
  | info
  | warn
  deriving DecidableEq, Repr

namespace LogLevel

/-- The name of a level. -/
def label : LogLevel → String
  | debug => "DEBUG"
  | info => "INFO"
  | warn => "WARN"

/-- Whether lines of a level are shown; only a verbose log has those below warnings. -/
def isShown (verbose : Bool) : LogLevel → Bool
  | warn => true
  | _ => verbose

end LogLevel

/-- A line of the log. -/
structure LogLine where
  level : LogLevel
  message : String
  values : List (String × String)
  deriving DecidableEq, Repr

namespace LogLine

/-- The text of a line: level, message, and the values in their order. -/
def text (line : LogLine) : String :=
  line.values.foldl (fun text (name, value) => text ++ " " ++ name ++ "=" ++ value)
    (line.level.label ++ " " ++ line.message)

end LogLine

end AliasHoist
