import AliasHoist.Command.Scan
import AliasHoist.Path
import AliasHoist.Text.Digits

/-!
# Invocations

What a command line asks for: one of the commands with its arguments, and options that all commands
share.

## Main Definitions

* `Request`: a command with its arguments;
* `Invocation`: a command line;
* `Invocation.parse`: the invocation that some arguments spell.

## Design Notes

The shared options can stand before or after the name of the command.  If one stands in both places,
the latter counts, with all its values.
-/

namespace AliasHoist.Command

/-- How findings are listed. -/
inductive CheckFormat where
  | lines
  | json
  deriving DecidableEq, Repr

/-- How fixes are shown. -/
inductive FixFormat where
  | lines
  | diff
  | summary
  deriving DecidableEq, Repr

/-- What to fix, and how. -/
structure FixRequest where
  paths : List Path
  /-- The file to write to, in the place of the source. -/
  output : Option Path
  format : FixFormat
  /-- Whether statistics follow the diffs. -/
  summary : Bool
  /-- Whether files are changed. -/
  apply : Bool
  deriving DecidableEq, Repr

/-- **A command with its arguments.** -/
inductive Request where
  | check (paths : List Path) (format : CheckFormat)
  | fix (request : FixRequest)
  | history (limit : Nat)
  | revert (id : String) (force : Bool)
  | clean (keepDays : Nat)
  | rule
  deriving DecidableEq, Repr

/-- **A command line.** -/
structure Invocation where
  /-- Whether runs are recorded in the working directory. -/
  localState : Bool
  /-- The file with the settings. -/
  config : Option Path
  /-- Further patterns of files to leave out. -/
  exclude : List String
  verbose : Bool
  request : Request
  deriving DecidableEq, Repr

/-- The number below a bound that a text spells, perhaps with a plus. -/
def numberBelow? (bound : Nat) (text : String) : Option Nat :=
  let digits :=
    match text.toList with
    | '+' :: rest => rest
    | cs => cs
  if digits.isEmpty || !digits.all Char.isDigit then none
  else
    let n := Text.ofDigits digits
    if n < bound then some n else none

/-- The numbers of runs to show lie below this bound. -/
def limitBound : Nat := UInt64.size

/-- The numbers of days lie below this bound. -/
def daysBound : Nat := UInt32.size

/-! ## Levels -/

/-- Whether a text can be a path. -/
def isPathText (text : String) : Bool := !text.isEmpty

/-- The options of all commands. -/
def sharedOptions : List OptionSpec := [
  { name := "local-state", arity := .flag },
  { name := "config", arity := .one, accepts := isPathText },
  { name := "exclude", arity := .many },
  { name := "verbose", letter := some 'v', arity := .flag },
  { name := "help", letter := some 'h', arity := .flag }]

/-- The level before the name of the command. -/
def mainLevel : Level where
  options := sharedOptions ++ [{ name := "version", letter := some 'V', arity := .flag }]

/-- The paths to work on. -/
def pathsOption : OptionSpec where
  name := "paths"
  letter := some 'p'
  arity := .several
  accepts := isPathText

/-- A format, which is one of some words. -/
def formatOption (words : List String) : OptionSpec where
  name := "format"
  arity := .one
  accepts := words.contains

/-- The level after the name of a command. -/
def levelOf? : String → Option Level
  | "check" => some { options := sharedOptions ++ [pathsOption, formatOption ["default", "json"]] }
  | "fix" => some {
      options := sharedOptions ++ [
        pathsOption,
        formatOption ["default", "diff", "summary"],
        { name := "output", letter := some 'o', arity := .one, accepts := isPathText },
        { name := "summary", arity := .flag },
        { name := "apply", arity := .flag }] }
  | "history" => some {
      options := sharedOptions ++ [
        { name := "limit", letter := some 'l', arity := .one
          accepts := fun text => (numberBelow? limitBound text).isSome }] }
  | "revert" => some {
      options := sharedOptions ++ [{ name := "force", arity := .flag }]
      operands := 1 }
  | "clean" => some {
      options := sharedOptions ++ [
        { name := "keep-days", arity := .one
          accepts := fun text => (numberBelow? daysBound text).isSome }] }
  | "rule" => some { options := sharedOptions }
  | _ => none

/-- The names of the commands. -/
def commandNames : List String := ["check", "fix", "history", "revert", "clean", "rule"]

/-! ## Requests -/

/-- The paths that were given, of which there has to be at least one. -/
def requiredPaths (scan : Scan) : Except Stop (List Path) :=
  if scan.has "paths" then .ok ((scan.valuesOf "paths").map Path.mk) else .error (.missing "paths")

/-- A number that was given, or else another. -/
def numberOr (scan : Scan) (name : String) (bound default : Nat) : Nat :=
  ((scan.valueOf? name).bind (numberBelow? bound)).getD default

/-- The format of a listing of findings. -/
def checkFormat (scan : Scan) : CheckFormat :=
  if scan.valueOf? "format" == some "json" then .json else .lines

/-- The format of fixes. -/
def fixFormat (scan : Scan) : FixFormat :=
  match scan.valueOf? "format" with
  | some "diff" => .diff
  | some "summary" => .summary
  | _ => .lines

/-- **The request of a command.** -/
def requestOf (name : String) (scan : Scan) : Except Stop Request :=
  match name with
  | "check" => do return .check (← requiredPaths scan) (checkFormat scan)
  | "fix" => do
      return .fix {
        paths := ← requiredPaths scan
        output := (scan.valueOf? "output").map Path.mk
        format := fixFormat scan
        summary := scan.has "summary"
        apply := scan.has "apply" }
  | "history" => .ok (.history (numberOr scan "limit" limitBound 10))
  | "revert" =>
      match scan.operands with
      | id :: _ => .ok (.revert id (scan.has "force"))
      | [] => .error (.missing "run_id")
  | "clean" => .ok (.clean (numberOr scan "keep-days" daysBound 30))
  | _ => .ok .rule

/-- What the command `help` comes to: help, if it is about a command or about none. -/
def helpStop : List String → Stop
  | [] => .help
  | [name] => if name = "help" || commandNames.contains name then .help else .unknownArgument name
  | _ :: name :: _ => .unknownArgument name

/-- The level on which a shared option counts. -/
def deciding (outer inner : Scan) (name : String) : Scan := if inner.has name then inner else outer

namespace Invocation

/-- **The invocation that arguments spell.** -/
def parse (arguments : List String) : Except Stop Invocation := do
  let (outer, command) ← scanLevel mainLevel ("help" :: commandNames) {} arguments
  match command with
  | none => .error (.missing "command")
  | some ("help", rest) => .error (helpStop rest)
  | some (name, rest) =>
      match levelOf? name with
      | none => .error (.unknownArgument name)
      | some level => do
          let (inner, _) ← scanLevel level [] {} rest
          let request ← requestOf name inner
          return {
            localState := (deciding outer inner "local-state").has "local-state"
            config := ((deciding outer inner "config").valueOf? "config").map Path.mk
            exclude := (deciding outer inner "exclude").valuesOf "exclude"
            verbose := (deciding outer inner "verbose").has "verbose"
            request }

end Invocation

end AliasHoist.Command
