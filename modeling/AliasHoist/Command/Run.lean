import AliasHoist.Command.Fix
import AliasHoist.Runs.Clean
import AliasHoist.Runs.History
import AliasHoist.Runs.Revert

/-!
# Running commands

From a command line to what it does.

## Main Definitions

* `Environment`: what commands need to know beside their arguments and files;
* `Environment.stateDirectory`: where runs are recorded;
* `carryOut`: what an invocation does;
* `runCommandLine`: the same for the arguments of a command line, with the exit status.
-/

namespace AliasHoist.Command

/-- **What commands need to know** beside their arguments and the files. -/
structure Environment where
  parse : Parser
  /-- The directory for runs that was set by hand. -/
  chosenState : Option Path
  /-- The user's directory for the data of programs. -/
  dataDirectory : Path
  now : Timestamp
  /-- The identifier of the next run. -/
  nextRunId : String

namespace Environment

/-- **The directory in which runs are recorded**: the one set by hand, or else one in the working
directory or one of the user's. -/
def stateDirectory (environment : Environment) (localState : Bool) (fs : FileSystem) : Path :=
  match environment.chosenState with
  | some path => path
  | none =>
      if localState then (FileSystem.pathOf fs.workingDirectory).child ".ts-hoist"
      else environment.dataDirectory.child "ts-hoist"

end Environment

/-- The name of this program. -/
def programName : String := "ts-hoist"

/-- What becomes of fixed sources when an output may be named and changes may be asked for. -/
def deliveryFor (environment : Environment) (invocation : Invocation) (request : FixRequest)
    (arguments : List String) (fs : FileSystem) : Delivery :=
  match request.output with
  | some output => .toFile output
  | none =>
      if request.apply then
        .inPlace {
          state := environment.stateDirectory invocation.localState fs
          id := environment.nextRunId
          time := environment.now
          command := " ".intercalate (programName :: arguments) }
      else .dryRun

/-- **What an invocation does**, with the exit status. -/
def carryOut (environment : Environment) (arguments : List String) (invocation : Invocation) :
    Task CommandError UInt8 := do
  let fs ← Task.files
  let state := environment.stateDirectory invocation.localState fs
  match invocation.request with
  | .check paths format => do
      let config ← Task.ask (Config.discover · invocation.config) .config
      let files ← collect config invocation.exclude paths
      let count ← checkFiles environment.parse config format files
      return if count = 0 then 0 else 1
  | .fix request => do
      let config ← Task.ask (Config.discover · invocation.config) .config
      let files ← collect config invocation.exclude request.paths
      fixFiles {
        parse := environment.parse
        config
        format := request.format
        summary := request.summary
        delivery := deliveryFor environment invocation request arguments fs } files
      return 0
  | .history limit => do
      onRuns (showHistory limit state)
      return 0
  | .revert id force => do
      onRuns (revertRun id force state)
      return 0
  | .clean keepDays => do
      let count ← onRuns (cleanRuns keepDays environment.now state)
      Task.print ("✓ Cleaned " ++ toString count ++ " old run(s)")
      return 0
  | .rule => do
      Task.print ruleInfo.toJson.pretty
      return 0

/-- The exit status after an error. -/
def CommandError.status : CommandError → UInt8
  | .run (.beyondCalendar _) => 101
  | _ => 1

/-- What is said when a command line is not carried out. -/
def Stop.text : Stop → String
  | help =>
      "Hoist multiline inline object types in TypeScript into named type aliases\n\n" ++
      "Usage: ts-hoist [OPTIONS] <COMMAND>\n\n" ++
      "Commands: check, fix, history, revert, clean, rule, help"
  | version => "ts-hoist"
  | unknownArgument argument => "error: unexpected argument '" ++ argument ++ "' found"
  | wrongNumber option => "error: wrong number of values for '--" ++ option ++ "'"
  | unexpectedValue option => "error: unexpected value for '--" ++ option ++ "'"
  | invalidValue option value => "error: invalid value '" ++ value ++ "' for '--" ++ option ++ "'"
  | repeated option => "error: the argument '--" ++ option ++ "' cannot be used multiple times"
  | missing what => "error: missing argument: " ++ what

/-- The exit status when a command line is not carried out. -/
def Stop.status : Stop → UInt8
  | help | version => 0
  | _ => 2

/-- What a command line has come to. -/
structure Finished where
  status : UInt8
  /-- Whether the log is shown in full. -/
  verbose : Bool
  world : World

/-- **What a command line does.** -/
def runCommandLine (environment : Environment) (arguments : List String) (world : World) :
    Finished :=
  match Invocation.parse arguments with
  | .error stop =>
      let say : Task CommandError Unit :=
        if stop.status = 0 then Task.print stop.text else Task.report stop.text
      match say world with
      | .ok _ world | .error _ world => { status := stop.status, verbose := false, world }
  | .ok invocation =>
      match carryOut environment arguments invocation world with
      | .ok status world => { status, verbose := invocation.verbose, world }
      | .error error world =>
          match (Task.report error.report : Task CommandError Unit) world with
          | .ok _ world | .error _ world =>
              { status := error.status, verbose := invocation.verbose, world }

end AliasHoist.Command
