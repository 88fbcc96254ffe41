import AliasHoist.Rewrite.Apply
import AliasHoist.Rule.Lint
import AliasHoist.Rule.Trace
import AliasHoist.Tree.Forest

/-!
# Editing a source

An editor holds one source with its tree and applies the rule's fixes to it, pass after pass.  A
pass applies all fixes that do not collide, parses the result and lints it again, so that the fixes
of the next pass belong to the new text.

## Main Definitions

* `Editor`: a source with its tree;
* `Editor.pass`: the editor after the fixes of one pass;
* `Editor.fixAll`: passes until no fix is left or the limit is reached;
* `FixRun`: what such a run leaves: the editor, the log and the outcome.

## Design Notes

A source with syntax errors is left alone, and so is one whose fixed form would not parse cleanly.
A run that fails keeps the passes before the failure: the editor it leaves is the one that the
failed pass started from.
-/

namespace AliasHoist

/-- Why a run of fixes failed. -/
inductive FixError where
  | parse (error : ParseError)
  | edit (error : EditError)
  /-- The source had syntax errors before any fix. -/
  | sourceHasErrors
  /-- A pass would have left a source with syntax errors. -/
  | unparseableFix
  deriving DecidableEq, Repr

namespace FixError

/-- What the user is told. -/
def message : FixError → String
  | parse error => error.message
  | edit error => error.message
  | sourceHasErrors => "source has syntax errors; refusing to fix"
  | unparseableFix => "fixed output no longer parses cleanly"

end FixError

/-- What the passes of a run have done so far. -/
structure Progress where
  applied : Nat
  passes : Nat
  /-- The names of the aliases introduced, in the order of application. -/
  aliases : List String
  deriving DecidableEq, Repr

namespace Progress

/-- Nothing done yet. -/
def none : Progress := { applied := 0, passes := 0, aliases := [] }

/-- One more pass. -/
def add (progress : Progress) (selection : FixSelection) : Progress where
  applied := progress.applied + selection.accepted.length
  passes := progress.passes + 1
  aliases := progress.aliases ++ selection.accepted.map (·.aliasName)

/-- The log line of the pass that led here. -/
def logLine (progress : Progress) (selection : FixSelection) : LogLine where
  level := .debug
  message := "applied fix pass"
  values := [("pass", toString progress.passes),
    ("applied", toString selection.accepted.length),
    ("deferred", toString selection.deferred.length)]

end Progress

/-- What a run of fixes did. -/
structure FixOutcome extends Progress where
  /-- The findings left after the last pass. -/
  remaining : List Finding

/-- **A source with its tree.** -/
structure Editor where
  content : String
  dialect : Dialect
  tree : SyntaxTree

/-- What a run of fixes leaves. -/
structure FixRun where
  editor : Editor
  log : List LogLine
  outcome : Except FixError FixOutcome

namespace Editor

variable (parse : Parser)

/-- The editor of a source. -/
def new (content : String) (dialect : Dialect) : Except ParseError Editor :=
  (parse content dialect).map fun tree => { content, dialect, tree }

/-- Whether the source has syntax errors. -/
def hasErrors (editor : Editor) : Bool := editor.tree.hasErrors

/-- The findings of the rule in the source. -/
def findings (editor : Editor) (disambiguate : Bool) : List Finding :=
  lint editor.tree disambiguate

/-- **The editor after the accepted fixes of a selection.** -/
def pass (editor : Editor) (selection : FixSelection) : Except FixError Editor :=
  match applyEdits editor.content selection.edits with
  | .error error => .error (.edit error)
  | .ok content =>
      match parse content editor.dialect with
      | .error error => .error (.parse error)
      | .ok tree =>
          if tree.hasErrors then .error .unparseableFix
          else .ok { content, dialect := editor.dialect, tree }

/-- The end of a run: what is left is linted once more. -/
def finish (disambiguate : Bool) (editor : Editor) (progress : Progress) : FixRun :=
  let remaining := editor.findings disambiguate
  { editor, log := lintLog remaining, outcome := .ok { toProgress := progress, remaining } }

/-- The passes of a run, as many as the limit still allows. -/
def fixFrom (disambiguate : Bool) : Nat → Editor → Progress → FixRun
  | 0, editor, progress => finish disambiguate editor progress
  | limit + 1, editor, progress =>
      let findings := editor.findings disambiguate
      let selection := selectFixes (fixesOf findings)
      if selection.accepted.isEmpty then
        let run := finish disambiguate editor progress
        { run with log := lintLog findings ++ run.log }
      else
        match pass parse editor selection with
        | .error error => { editor, log := lintLog findings, outcome := .error error }
        | .ok next =>
            let progress := progress.add selection
            let run := fixFrom disambiguate limit next progress
            { run with log := lintLog findings ++ progress.logLine selection :: run.log }

/-- **Applies fixes until none is left or the limit on passes is reached.** -/
def fixAll (editor : Editor) (disambiguate : Bool) (maxPasses : Nat) : FixRun :=
  if editor.hasErrors then { editor, log := [], outcome := .error .sourceHasErrors }
  else fixFrom parse disambiguate maxPasses editor .none

end Editor

end AliasHoist
