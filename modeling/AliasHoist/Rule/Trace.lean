import AliasHoist.Console.Log
import AliasHoist.Rule.Finding

/-!
# What linting logs

Every finding whose fix is withheld leaves a line in the log.
-/

namespace AliasHoist

namespace Finding

/-- The log line of a finding without a fix. -/
def logLine? (finding : Finding) : Option LogLine :=
  let place := [("line", toString finding.span.start.line),
    ("column", toString finding.span.start.column), ("alias", finding.aliasName)]
  finding.withheld?.map fun
    | .noInsertionPoint =>
        { level := .debug
          message := "no enclosing statement for inline type literal; fix withheld"
          values := place }
    | .captures name =>
        { level := .debug
          message :=
            "inline type literal uses a name bound below the insertion point; fix withheld"
          values := place ++ [("captured", name)] }

end Finding

/-- The log of one round of linting. -/
def lintLog (findings : List Finding) : List LogLine := findings.filterMap Finding.logLine?

end AliasHoist
