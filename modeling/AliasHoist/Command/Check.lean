import AliasHoist.Command.Collect
import AliasHoist.Command.Invocation
import AliasHoist.Json.Print
import AliasHoist.Rule.Report

/-!
# Checking files

The command that lists findings.

## Main Definitions

* `readSource`: the source in a file, with its dialect;
* `checkFiles`: lists the findings in some files.
-/

namespace AliasHoist.Command

/-- **The source in a file**, with its dialect.  Files of no known dialect are passed over. -/
def readSource (path : Path) : Task CommandError (Option (String × Dialect)) :=
  match path.dialect? with
  | none => do
      Task.log .warn "no TypeScript grammar for this extension; skipping" [("path", path.text)]
      return none
  | some dialect => do
      let content ← Task.ask (·.readText path) (.readFile path)
      return some (content, dialect)

/-- The editor of the source in a file. -/
def openEditor (parse : Parser) (path : Path) (content : String) (dialect : Dialect) :
    Task CommandError Editor :=
  match Editor.new parse content dialect with
  | .ok editor => pure editor
  | .error reason => throw (.parseFile path reason)

/-- Where a finding is. -/
def placeText (path : Path) (finding : Finding) : String :=
  path.text ++ ":" ++ toString finding.span.start.line ++ ":" ++ toString finding.span.start.column

/-- The line of a finding. -/
def findingLine (path : Path) (finding : Finding) : String :=
  let status :=
    match finding.withheld? with
    | none => "fixable"
    | some reason => "no fix: " ++ reason.text
  placeText path finding ++ "  " ++ finding.message.text ++ " (" ++ status ++ ")"

/-- The findings in a file. -/
def findingsIn (parse : Parser) (config : Config) (path : Path) :
    Task CommandError (List Finding) := do
  match ← readSource path with
  | none => return []
  | some (content, dialect) => do
      let editor ← openEditor parse path content dialect
      if editor.hasErrors then
        Task.log .warn "file has syntax errors; findings may be incomplete" [("path", path.text)]
      let findings := editor.findings config.disambiguateNames
      Task.logLines (lintLog findings)
      return findings

/-- The findings in some files, each listed as soon as it is known if lines are asked for. -/
def findingsInAll (parse : Parser) (config : Config) (format : CheckFormat) :
    List Path → Task CommandError (List (Path × List Finding))
  | [] => pure []
  | path :: rest => do
      let findings ← findingsIn parse config path
      if format = .lines then
        Task.printText (String.join (findings.map (findingLine path · ++ "\n")))
      let others ← findingsInAll parse config format rest
      return (path, findings) :: others

/-- The summary below a list of findings. -/
def checkSummary (results : List (Path × List Finding)) : String :=
  let found := results.filter fun (_, findings) => !findings.isEmpty
  let findings := found.flatMap (·.2)
  let fixable := (findings.filter (·.isFixable)).length
  if findings.isEmpty then
    "✓ No multiline inline type literals in " ++ toString results.length ++ " file(s)\n"
  else
    "\nFound " ++ toString findings.length ++ " multiline inline type literal(s) in " ++
      toString found.length ++ " file(s), " ++ toString fixable ++ " fixable\n" ++
      if 0 < fixable then
        "💡 Run 'ts-hoist fix --paths <PATHS> --apply' to hoist them\n"
      else ""

/-- The findings in some files as JSON. -/
def checkReport (results : List (Path × List Finding)) : String :=
  (Json.Value.array (results.flatMap fun (path, findings) =>
    findings.map (·.toJson path.text))).pretty ++ "\n"

/-- **Lists the findings in some files**; how many they are. -/
def checkFiles (parse : Parser) (config : Config) (format : CheckFormat) (files : List Path) :
    Task CommandError Nat := do
  let results ← findingsInAll parse config format files
  Task.printText (match format with
    | .lines => checkSummary results
    | .json => checkReport results)
  return (results.flatMap (·.2)).length

end AliasHoist.Command
