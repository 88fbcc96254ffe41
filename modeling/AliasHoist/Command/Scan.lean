/-!
# Scanning command lines

The arguments of a command line are options with their values, and operands.  This module sorts them
out, given a description of the options.

## Main Definitions

* `OptionSpec`: an option, with the values that it takes;
* `Level`: what can stand on one level of a command line, before or after the name of a command;
* `Scan`: what has been read of a level;
* `Scan.step`: one argument;
* `scanLevel`: a level up to the name of a command or to the end.

## Design Notes

A value may be attached to its option, as in `--name=value`, `-n=value` and `-nvalue`, and is then
its only one.  Otherwise the arguments that follow an option are its values, up to the next argument
that starts with a dash; not even the name of a command ends them.  A dash alone is no option.
After two dashes everything is an operand.
-/

namespace AliasHoist.Command

/-- How many values an option takes. -/
inductive Arity where
  /-- None: the option is a flag. -/
  | flag
  | one
  /-- Any number, and the option can be repeated. -/
  | many
  /-- At least one, and the option can be repeated. -/
  | several
  deriving DecidableEq, Repr

namespace Arity

/-- Whether an option can be given more than once. -/
def canRepeat : Arity → Bool
  | flag | one => false
  | many | several => true

/-- Whether an option may have so many values. -/
def admits : Arity → Nat → Bool
  | flag, n => n == 0
  | one, n => n == 1
  | many, _ => true
  | several, n => n != 0

end Arity

/-- **An option.** -/
structure OptionSpec where
  name : String
  letter : Option Char := none
  arity : Arity
  /-- Whether a text can be a value of the option. -/
  accepts : String → Bool := fun _ => true

/-- What can stand on one level of a command line. -/
structure Level where
  options : List OptionSpec
  /-- The most operands. -/
  operands : Nat := 0

namespace Level

/-- The option with a name. -/
def named? (level : Level) (name : String) : Option OptionSpec :=
  level.options.find? (·.name == name)

/-- The option with a letter. -/
def lettered? (level : Level) (letter : Char) : Option OptionSpec :=
  level.options.find? (·.letter == some letter)

end Level

/-- Why a command line is not carried out. -/
inductive Stop where
  /-- Help was asked for. -/
  | help
  /-- The version was asked for. -/
  | version
  | unknownArgument (argument : String)
  | wrongNumber (option : String)
  | unexpectedValue (option : String)
  | invalidValue (option value : String)
  | repeated (option : String)
  | missing (what : String)
  deriving DecidableEq, Repr

/-- What has been read of a level. -/
structure Scan where
  /-- The options that were given, with their values, in order. -/
  given : List (String × List String) := []
  /-- An option that may get more values, with those it has. -/
  pending : Option (OptionSpec × List String) := none
  operands : List String := []
  /-- Whether everything that follows is an operand. -/
  operandsOnly : Bool := false

namespace Scan

/-- Whether an option was given. -/
def has (scan : Scan) (name : String) : Bool := scan.given.any (·.1 == name)

/-- All values of an option. -/
def valuesOf (scan : Scan) (name : String) : List String :=
  scan.given.flatMap fun (given, values) => if given == name then values else []

/-- The only value of an option. -/
def valueOf? (scan : Scan) (name : String) : Option String := (scan.valuesOf name).head?

/-- An option with all its values.  Help and the version are given at once. -/
def accept (scan : Scan) (option : OptionSpec) (values : List String) : Except Stop Scan :=
  if option.name = "help" then .error .help
  else if option.name = "version" then .error .version
  else if !option.arity.admits values.length then .error (.wrongNumber option.name)
  else
    match values.find? (!option.accepts ·) with
    | some value => .error (.invalidValue option.name value)
    | none =>
        if scan.has option.name && !option.arity.canRepeat then .error (.repeated option.name)
        else .ok { scan with given := scan.given ++ [(option.name, values)] }

/-- An option that waits for values gets no more. -/
def settle (scan : Scan) : Except Stop Scan :=
  match scan.pending with
  | none => .ok scan
  | some (option, values) => accept { scan with pending := none } option values

/-- An option, perhaps with a value attached. -/
def startOption (scan : Scan) (option : OptionSpec) (attached : Option String) :
    Except Stop Scan := do
  let scan ← scan.settle
  match option.arity, attached with
  | .flag, none => scan.accept option []
  | .flag, some _ => .error (.unexpectedValue option.name)
  | _, some value => scan.accept option [value]
  | _, none => .ok { scan with pending := some (option, []) }

/-- An option by its name: what follows the two dashes. -/
def long (scan : Scan) (level : Level) (cs : List Char) : Except Stop Scan :=
  let name := String.ofList (cs.takeWhile (· != '='))
  let attached :=
    match cs.dropWhile (· != '=') with
    | [] => none
    | _ :: value => some (String.ofList value)
  match level.named? name with
  | none => .error (.unknownArgument name)
  | some option => scan.startOption option attached

/-- Options by their letters: what follows the dash.  What follows the letter of an option with
values is its value. -/
def short (scan : Scan) (level : Level) : List Char → Except Stop Scan
  | [] => .ok scan
  | letter :: rest =>
      match level.lettered? letter with
      | none => .error (.unknownArgument (String.ofList [letter]))
      | some option =>
          if option.arity = .flag then do
            let scan ← scan.startOption option none
            short scan level rest
          else
            match rest with
            | [] => scan.startOption option none
            | '=' :: value => scan.startOption option (some (String.ofList value))
            | value => scan.startOption option (some (String.ofList value))

/-- An operand. -/
def operand (scan : Scan) (level : Level) (argument : String) : Except Stop Scan := do
  let scan ← scan.settle
  if scan.operands.length < level.operands then
    .ok { scan with operands := scan.operands ++ [argument] }
  else .error (.unknownArgument argument)

/-- A value of the option that waits for some, or else an operand. -/
def value (scan : Scan) (level : Level) (argument : String) : Except Stop Scan :=
  match scan.pending with
  | none => scan.operand level argument
  | some (option, values) =>
      let scan := { scan with pending := some (option, values ++ [argument]) }
      if option.arity = .one then scan.settle else .ok scan

/-- **One argument.** -/
def step (scan : Scan) (level : Level) (argument : String) : Except Stop Scan :=
  if scan.operandsOnly then scan.operand level argument
  else
    match argument.toList with
    | ['-', '-'] => .ok { scan with operandsOnly := true }
    | '-' :: '-' :: name => scan.long level name
    | '-' :: letter :: letters => scan.short level (letter :: letters)
    | _ => scan.value level argument

end Scan

/-- **A level of a command line**, up to the name of a command, which comes with the arguments after
it, or to the end. -/
def scanLevel (level : Level) (commands : List String) :
    Scan → List String → Except Stop (Scan × Option (String × List String))
  | scan, [] => do
      let scan ← scan.settle
      return (scan, none)
  | scan, argument :: rest =>
      if !scan.operandsOnly && scan.pending.isNone && commands.contains argument then
        .ok (scan, some (argument, rest))
      else do
        let scan ← scan.step level argument
        scanLevel level commands scan rest

end AliasHoist.Command
