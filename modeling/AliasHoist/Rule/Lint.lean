import AliasHoist.Naming.Alias
import AliasHoist.Naming.Scope
import AliasHoist.Rule.Anchor
import AliasHoist.Rule.Capture
import AliasHoist.Rule.Finding

/-!
# The rule

An object type written over several lines in the type slot of a variable, a class property, a
parameter or a return type is to be a named alias.

## Main Definitions

* `slotsOf`: the type slots that a node offers;
* `literalIn?`: the object type that fills a slot;
* `hoistFix`: the two edits that hoist a literal;
* `reportLiteral`: the finding for one slot, with the names it leaves taken;
* `lint`: all findings of a tree, in source order of the nodes that offer the slots.
-/

namespace AliasHoist

variable (tree : SyntaxTree)

/-! ## Slots -/

/-- The role of a parameter's type slot. -/
def parameterRole (parameter : Nat) : SlotRole :=
  let modified := (tree.firstChildOfKind? parameter .parameterModifier).isSome
  match (tree.childInField? parameter .pattern).map tree.kind with
  | some .identifier => if modified then .parameterProperty else .functionParameter
  | some .objectPattern => .destructuredObject
  | some .arrayPattern => .destructuredArray
  | _ => .unknown

/-- The type slot of a node that has its type in the field of that name. -/
def typeFieldSlot? (owner : Nat) (role : SlotRole) : Option TypeSlot :=
  (tree.childInField? owner .type).map fun node => { node, owner, role }

/-- The type slots of a function's parameters, in source order. -/
def parameterSlots (function : Nat) : List TypeSlot :=
  match tree.childInField? function .parameters with
  | none => []
  | some parameters =>
      ((tree.children parameters).filter fun child => tree.kind child == .parameter).filterMap
        fun parameter => typeFieldSlot? tree parameter (parameterRole tree parameter)

/-- The slot of a function's return type. -/
def returnSlot? (function : Nat) : Option TypeSlot :=
  (tree.childInField? function .returnType).map fun node =>
    { node, owner := function, role := .functionReturn }

/-- **The type slots that a node offers.**  A function offers those of its parameters and then its
return type. -/
def slotsOf (id : Nat) : List TypeSlot :=
  match tree.kind id with
  | .variableBinding => (typeFieldSlot? tree id .variableBinding).toList
  | .classProperty => (typeFieldSlot? tree id .classProperty).toList
  | .functionDeclaration | .functionExpression | .arrowFunction | .methodDefinition =>
      parameterSlots tree id ++ (returnSlot? tree id).toList
  | _ => []

/-- The kinds of nodes that can offer slots. -/
def visitedKinds : List NodeKind := [
  .variableBinding, .classProperty, .functionDeclaration, .functionExpression, .arrowFunction,
  .methodDefinition]

/-- The object type that fills a slot.  Comments may stand in front of it; an object type deeper in
the slot belongs to the type around it. -/
def literalIn? (slot : Nat) : Option Nat :=
  if tree.kind slot == .typeSlot then
    ((tree.children slot).find? fun child => tree.kind child != .comment).filter fun child =>
      tree.kind child == .objectTypeLiteral
  else none

/-! ## Fixes -/

/-- The declaration of an alias. -/
def aliasDeclaration (name literal : String) : String := "type " ++ name ++ " = " ++ literal ++ ";"

/-- **The fix for a literal**: its text, unchanged, becomes the alias declared in front of the
anchor, and the name takes its place.  The anchor's indentation is repeated after the blank line, so
that the anchor keeps its column. -/
def hoistFix (literal : Nat) (name : String) (anchor : Nat) : Fix where
  aliasName := name
  declaration := .insert (tree.span anchor).startByte
    (aliasDeclaration name (tree.text literal) ++ "\n\n" ++ tree.leadingIndent anchor)
  reference := .replace (tree.span literal).startByte (tree.span literal).stopByte name

/-- The anchor for a literal in a slot, or why it cannot be hoisted. -/
def hoistAnchor (slot literal : Nat) : Except Withheld Nat :=
  match anchor? tree slot with
  | none => .error .noInsertionPoint
  | some anchor =>
      match capturedName? tree literal anchor with
      | none => .ok anchor
      | some name => .error (.captures name)

/-! ## Findings -/

/-- The finding for a literal in a slot.  Only a literal that is hoisted takes its name. -/
def reportLiteral (names : NameScope) (slot : TypeSlot) (literal : Nat) : Finding × NameScope :=
  let derived := deriveName tree slot
  let span := tree.span literal
  match hoistAnchor tree slot.node literal with
  | .ok anchor =>
      let (name, names) := names.claim derived
      ({ message := .inlineTypeLiteral, span, aliasName := name
         fix := .ok (hoistFix tree literal name anchor) }, names)
  | .error reason =>
      ({ message := .inlineTypeLiteral, span, aliasName := derived, fix := .error reason }, names)

/-- The literal in a slot that the rule objects to: one that is written over several lines. -/
def offendingLiteral? (slot : TypeSlot) : Option Nat :=
  (literalIn? tree slot.node).filter fun literal => (tree.span literal).isMultiline

/-- The findings for a list of slots, given the names taken so far. -/
def findingsFor (names : NameScope) : List TypeSlot → List Finding
  | [] => []
  | slot :: rest =>
      match offendingLiteral? tree slot with
      | none => findingsFor names rest
      | some literal =>
          let (finding, names) := reportLiteral tree names slot literal
          finding :: findingsFor names rest

/-- All type slots of a tree, in source order of the nodes that offer them. -/
def allSlots : List TypeSlot := tree.preorder.flatMap (slotsOf tree)

/-- **The findings of the rule.** -/
def lint (disambiguate : Bool) : List Finding :=
  findingsFor tree (.ofTree tree disambiguate) (allSlots tree)

/-- The fixes among findings, in their order. -/
def fixesOf (findings : List Finding) : List Fix := findings.filterMap Finding.fix?

end AliasHoist
