import AliasHoist.Json.Value
import AliasHoist.Rule.Lint

/-!
# Reports for other programs

Findings and the rule itself as JSON.
-/

namespace AliasHoist

open Json (Value)

/-- The place of a span: lines and columns only. -/
def Span.toJson (span : Span) : Value := .object [
  ("line", .nat span.start.line), ("column", .nat span.start.column),
  ("end_line", .nat span.stop.line), ("end_column", .nat span.stop.column)]

/-- **The report of a finding.**  The reason for a missing fix is there only when the fix is. -/
def Finding.toJson (finding : Finding) (path : String) : Value := .object ([
  ("file_path", .text path), ("rule", .text ruleInfo.name),
  ("message_id", .text finding.message.id), ("message", .text finding.message.text),
  ("location", finding.span.toJson), ("alias_name", .text finding.aliasName),
  ("fixable", .bool finding.isFixable)] ++
  (finding.withheld?.map fun reason => ("fix_unavailable", Value.text reason.id)).toList)

/-- The names of the kinds of nodes that the rule looks at. -/
def visitsJson : Value := .array (visitedKinds.map fun kind => .text kind.label)

/-- The rule for a listing of rules: keys in alphabetical order, messages with their texts. -/
def RuleInfo.toJson (info : RuleInfo) : Value := .object [
  ("description", .text info.description), ("fixable", .bool info.fixable),
  ("messages", .object (info.messages.map fun message => (message.id, .text message.text))),
  ("name", .text info.name), ("visits", visitsJson)]

end AliasHoist
