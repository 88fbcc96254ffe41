import AliasHoist.Rewrite.Fix
import AliasHoist.Tree.Span

/-!
# Findings

What the rule reports: a type literal over several lines in a type slot, with the fix that hoists
it or the reason why there is none.

## Main Definitions

* `RuleMessage`: the one thing the rule says;
* `Withheld`: why a finding has no fix;
* `Finding`: a literal with its alias name and its fix;
* `RuleInfo`: how the rule presents itself.
-/

namespace AliasHoist

/-- The messages of the rule. -/
inductive RuleMessage where
  | inlineTypeLiteral
  deriving DecidableEq, Repr

namespace RuleMessage

/-- The name of a message in reports. -/
def id : RuleMessage → String
  | inlineTypeLiteral => "inlineTypeLiteral"

/-- What the message tells the user. -/
def text : RuleMessage → String
  | inlineTypeLiteral =>
      "inline type literal annotations are disallowed; extract to a named type declaration."

end RuleMessage

/-- Why a finding has no fix. -/
inductive Withheld where
  /-- No statement encloses the literal. -/
  | noInsertionPoint
  /-- The literal uses a name that means something else in front of the anchor. -/
  | captures (name : String)
  deriving DecidableEq, Repr

namespace Withheld

/-- The name of the reason in reports. -/
def id : Withheld → String
  | noInsertionPoint => "no-insertion-point"
  | captures _ => "captures-type-parameter"

/-- The reason in words. -/
def text : Withheld → String
  | noInsertionPoint => "no enclosing statement to insert before"
  | captures _ => "uses a type parameter or `this` not in scope at the insertion point"

end Withheld

/-- **A type literal that the rule objects to.** -/
structure Finding where
  message : RuleMessage
  /-- The part of the source that the literal covers. -/
  span : Span
  /-- The name that the alias has or would have. -/
  aliasName : String
  fix : Except Withheld Fix

namespace Finding

/-- The fix of a finding, if it has one. -/
def fix? (finding : Finding) : Option Fix := finding.fix.toOption

/-- Whether a finding has a fix. -/
def isFixable (finding : Finding) : Bool := finding.fix?.isSome

/-- Why a finding has no fix. -/
def withheld? (finding : Finding) : Option Withheld :=
  match finding.fix with
  | .ok _ => none
  | .error reason => some reason

end Finding

/-- How a rule presents itself. -/
structure RuleInfo where
  name : String
  description : String
  fixable : Bool
  messages : List RuleMessage

/-- **The rule of this library.** -/
def ruleInfo : RuleInfo where
  name := "no-multiline-inline-type"
  description :=
    "Disallow multiline inline object type annotations; hoist them into named type aliases."
  fixable := true
  messages := [.inlineTypeLiteral]

end AliasHoist
