import AliasHoist.Command.Check
import AliasHoist.Diff.Unified
import AliasHoist.Runs.Store

/-!
# Fixing files

The command that hoists type literals.  It shows what it would do, writes the result to another
file, or changes the files in place and records that as a run.

## Main Definitions

* `Delivery`: what becomes of the fixed sources;
* `FixTally`: what has been done so far;
* `hoistFile`: the fixed source of a file;
* `fixFile`: fixes one file;
* `fixFiles`: fixes all of some files.

## Design Notes

A file that cannot be fixed is reported, and the others go on.  The change of a file is recorded
before the file is written, so that a run can be undone even when writing fails half way.

Each of the larger tasks is a first part and what is left to do after it (`hoistSource`, `settleFile`,
`settleRun`), so that what is left can be reasoned about with the result of the first part at hand.
-/

namespace AliasHoist.Command

/-- A run that is being made: where it is recorded, and what is known of it beforehand. -/
structure Recording where
  state : Path
  id : String
  time : Timestamp
  command : String
  deriving DecidableEq, Repr

namespace Recording

/-- The run with its changes. -/
def run (recording : Recording) (changes : List FileChange) : Run where
  id := recording.id
  time := recording.time
  command := recording.command
  rule := ruleInfo.name
  changes := changes
  status := .applied
  canRevert := true

end Recording

/-- **What becomes of the fixed sources.** -/
inductive Delivery where
  /-- Nothing: they are only talked about. -/
  | dryRun
  | toFile (output : Path)
  | inPlace (recording : Recording)
  deriving DecidableEq, Repr

/-- How files are fixed. -/
structure FixPlan where
  parse : Parser
  config : Config
  format : FixFormat
  /-- Whether statistics follow. -/
  summary : Bool
  delivery : Delivery

/-- What has been done so far. -/
structure FixTally where
  stats : Diff.DiffStats := .none
  fixes : Nat := 0
  files : Nat := 0
  failed : Nat := 0
  /-- The changes to be recorded. -/
  changes : List FileChange := []
  deriving DecidableEq, Repr

/-- A source before and after its fixes. -/
structure HoistedSource where
  before : String
  after : String
  outcome : FixOutcome

/-- Why a finding is left. -/
def leftReason (config : Config) (finding : Finding) : String :=
  match finding.withheld? with
  | some reason => reason.text
  | none => "pass limit (" ++ toString config.maxPasses ++ ") reached"

/-- Reports the findings that are left. -/
def reportLeft (config : Config) (path : Path) : List Finding → Task CommandError Unit
  | [] => pure ()
  | finding :: rest => do
      Task.report ("⚠️  " ++ placeText path finding ++ "  not fixed: " ++ leftReason config finding)
      reportLeft config path rest

/-- What is left to do once a run of fixes has ended.  A source with syntax errors is left alone. -/
def settleHoist (plan : FixPlan) (path : Path) (content : String) (run : FixRun) :
    Task CommandError (Option HoistedSource) :=
  match run.outcome with
  | .error .sourceHasErrors => do
      Task.log .warn "file has syntax errors; not fixing" [("path", path.text)]
      return none
  | .error reason => throw (.fixFile path reason)
  | .ok outcome => do
      reportLeft plan.config path outcome.remaining
      if outcome.applied = 0 then return none
      else return some { before := content, after := run.editor.content, outcome }

/-- What is left to do once the source of a file has been read. -/
def hoistSource (plan : FixPlan) (path : Path) :
    Option (String × Dialect) → Task CommandError (Option HoistedSource)
  | none => pure none
  | some (content, dialect) => do
      let editor ← openEditor plan.parse path content dialect
      let run := editor.fixAll plan.parse plan.config.disambiguateNames plan.config.maxPasses
      Task.logLines run.log
      settleHoist plan path content run

/-- **The fixed source of a file**, if there is anything to fix in it. -/
def hoistFile (plan : FixPlan) (path : Path) : Task CommandError (Option HoistedSource) := do
  hoistSource plan path (← readSource path)

/-- Shows what fixing does to a source. -/
def changeText (format : FixFormat) (path : Path) (source : HoistedSource) : String :=
  match format with
  | .lines => ""
  | .diff => Diff.diffReport path.text source.before source.after
  | .summary => Diff.summaryReport path.text source.before source.after source.outcome.aliases

namespace FixTally

/-- One more file with fixes.  Statistics are kept when changes are shown. -/
def count (tally : FixTally) (format : FixFormat) (source : HoistedSource) : FixTally :=
  { tally with
    stats :=
      if format = .lines then tally.stats
      else tally.stats.add (.between source.before source.after)
    fixes := tally.fixes + source.outcome.applied
    files := tally.files + 1 }

/-- One more change to be recorded. -/
def record (tally : FixTally) (change : FileChange) : FixTally :=
  { tally with changes := tally.changes ++ [change] }

/-- One more file that could not be fixed. -/
def fail (tally : FixTally) : FixTally := { tally with failed := tally.failed + 1 }

end FixTally

/-- Writes a fixed source to another file. -/
def writeOutput (output : Path) (source : HoistedSource) : Task CommandError Unit := do
  Task.writeText output source.after (.writeFile output)
  Task.print ("✓ Written: " ++ output.text)

/-- What would be done to a file. -/
def dryRunText (format : FixFormat) (path : Path) (source : HoistedSource) : String :=
  if format = .lines then
    "Would hoist " ++ toString source.outcome.applied ++ " type literal(s) in " ++ path.text ++
      ": " ++ ", ".intercalate source.outcome.aliases ++ "\n"
  else ""

/-- A task on runs as a part of a command. -/
def onRuns {α : Type} (task : Task RunError α) : Task CommandError α := fun world =>
  match task world with
  | .ok value world => .ok value world
  | .error reason world => .error (.run reason) world

/-- Keeps the content of a file; the change that is about to be made to it. -/
def backUp (recording : Recording) (path : Path) (source : HoistedSource) :
    Task CommandError FileChange := do
  let absolute ← Task.ask (·.canonical path) (.resolvePath path)
  let backup ← onRuns (saveBackup absolute source.before recording.id recording.state)
  return {
    path := absolute
    hashBefore := contentDigest (.text source.before)
    hashAfter := contentDigest (.text source.after)
    backup
    fixesApplied := source.outcome.applied }

/-- Writes a fixed source to its file. -/
def writeInPlace (format : FixFormat) (path : Path) (source : HoistedSource) :
    Task CommandError Unit := do
  Task.writeText path source.after (.writeFile path)
  Task.log .info "fixed file" [("path", path.text), ("fixes", toString source.outcome.applied),
    ("passes", toString source.outcome.passes)]
  if format ≠ .diff then Task.print ("✓ Modified: " ++ path.text)

/-- A task whose failure is a result like any other. -/
def attempt {α : Type} (task : Task CommandError α) :
    Task CommandError (Except CommandError α) := fun world =>
  match task world with
  | .ok value world => .ok (.ok value) world
  | .error reason world => .ok (.error reason) world

/-- Reports a file that could not be fixed. -/
def reportFailure (path : Path) (error : CommandError) (tally : FixTally) :
    Task CommandError FixTally := do
  Task.log .warn "file not fixed" [("path", path.text), ("error", error.inline)]
  Task.report ("✗ " ++ path.text ++ ": " ++ error.inline)
  return tally.fail

/-- Reports a failure, if there is one. -/
def orReport (path : Path) (tally : FixTally) (outcome : Except CommandError Unit) :
    Task CommandError FixTally :=
  match outcome with
  | .ok () => pure tally
  | .error error => reportFailure path error tally

/-- What becomes of a fixed source. -/
def deliver (plan : FixPlan) (path : Path) (source : HoistedSource) (tally : FixTally) :
    Task CommandError FixTally :=
  match plan.delivery with
  | .dryRun => do
      Task.printText (dryRunText plan.format path source)
      return tally
  | .toFile output => do orReport path tally (← attempt (writeOutput output source))
  | .inPlace recording => do
      match ← attempt (backUp recording path source) with
      | .error error => reportFailure path error tally
      | .ok change =>
          orReport path (tally.record change) (← attempt (writeInPlace plan.format path source))

/-- What is left to do once the source of a file has been fixed. -/
def settleFile (plan : FixPlan) (tally : FixTally) (path : Path) :
    Except CommandError (Option HoistedSource) → Task CommandError FixTally
  | .error error => reportFailure path error tally
  | .ok none => pure tally
  | .ok (some source) => do
      Task.printText (changeText plan.format path source)
      deliver plan path source (tally.count plan.format source)

/-- **Fixes one file.** -/
def fixFile (plan : FixPlan) (tally : FixTally) (path : Path) : Task CommandError FixTally := do
  settleFile plan tally path (← attempt (hoistFile plan path))

/-- Fixes some files, one after the other. -/
def fixEach (plan : FixPlan) (tally : FixTally) : List Path → Task CommandError FixTally
  | [] => pure tally
  | path :: rest => do
      let tally ← fixFile plan tally path
      fixEach plan tally rest

/-- Records the run, or tells why there is none. -/
def conclude (delivery : Delivery) (tally : FixTally) : Task CommandError Unit := do
  match delivery, tally.changes with
  | .inPlace recording, change :: changes => do
      onRuns ((recording.run (change :: changes)).save recording.state)
      Task.log .info "recorded run" [("run_id", recording.id), ("files", toString tally.files),
        ("fixes", toString tally.fixes)]
      Task.print ("\n📝 Run ID: " ++ recording.id ++ " (use 'ts-hoist revert " ++ recording.id ++
        "' to undo)")
  | delivery, _ =>
      if tally.fixes = 0 then
        Task.print "No changes made - no fixable multiline inline type literals found"
      else if delivery = .dryRun then
        Task.print ("\n💡 Dry run: " ++ toString tally.fixes ++ " fix(es) in " ++
          toString tally.files ++ " file(s). Re-run with --apply to write changes.")

/-- The last step of a run: files that could not be fixed make it fail. -/
def settleFailures (tally : FixTally) : Task CommandError Unit :=
  if tally.failed ≠ 0 then throw (.filesNotFixed tally.failed) else pure ()

/-- What is left to do once all files have been fixed. -/
def settleRun (plan : FixPlan) (tally : FixTally) : Task CommandError Unit := do
  if plan.summary && plan.format != .lines then Task.printText tally.stats.summary
  conclude plan.delivery tally
  settleFailures tally

/-- **Fixes all of some files.** -/
def fixFiles (plan : FixPlan) (files : List Path) : Task CommandError Unit := do
  match plan.delivery with
  | .toFile _ => if files.length ≠ 1 then throw (.outputForFiles files.length)
  | _ => pure ()
  settleRun plan (← fixEach plan {} files)

end AliasHoist.Command
