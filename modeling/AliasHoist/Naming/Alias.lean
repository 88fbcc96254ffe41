import AliasHoist.Naming.Identifier
import AliasHoist.Tree.Basic

/-!
# Alias names

The name of an alias tells where its type is used: the variable, parameter or property that has the
type, or the function that returns it.

## Main Definitions

* `SlotRole`: what a type slot belongs to;
* `TypeSlot`: a type slot with its owner and its role;
* `deriveName`: the name that a slot suggests.
-/

namespace AliasHoist

/-- What a type slot belongs to. -/
inductive SlotRole where
  | variableBinding
  | functionParameter
  | parameterProperty
  | destructuredObject
  | destructuredArray
  | classProperty
  | functionReturn
  | unknown
  deriving DecidableEq, Repr

namespace SlotRole

/-- All roles. -/
def all : List SlotRole := [
  variableBinding, functionParameter, parameterProperty, destructuredObject, destructuredArray,
  classProperty, functionReturn, unknown]

/-- The name a role has in reports. -/
def label : SlotRole → String
  | variableBinding => "VariableBinding"
  | functionParameter => "FunctionParameter"
  | parameterProperty => "ParameterProperty"
  | destructuredObject => "DestructuredObjectParameter"
  | destructuredArray => "DestructuredArrayParameter"
  | classProperty => "ClassProperty"
  | functionReturn => "FunctionReturn"
  | unknown => "Unknown"

/-- The role with a given report name. -/
def ofLabel? (name : String) : Option SlotRole := all.find? (·.label == name)

end SlotRole

/-- A place for a type, such as the one after the colon of `x: number`.  The owner is the binding,
parameter or property that has the type, and the function itself for a return type. -/
structure TypeSlot where
  node : Nat
  owner : Nat
  role : SlotRole
  deriving DecidableEq, Repr

/-- The name of an alias that nothing better suggests itself for. -/
def fallbackName : String := "ExtractedType"

variable (tree : SyntaxTree)

/-- The text of the child in a field, when the child has one of the given kinds. -/
def namedChild? (owner : Nat) (field : Field) (kinds : List NodeKind) : Option String :=
  ((tree.childInField? owner field).filter fun child => kinds.contains (tree.kind child)).map
    tree.text

/-- A name without the number signs that mark it as private. -/
def withoutPrivateMark (name : String) : String := String.ofList (name.toList.dropWhile (· == '#'))

/-- The name of a function or method, if it has a plain one. -/
def functionName? (function : Nat) : Option String :=
  (namedChild? tree function .name [.identifier, .propertyIdentifier, .privateIdentifier]).map
    withoutPrivateMark

/-- The variable that a function is the initial value of. -/
def assignedVariableName? (function : Nat) : Option String := do
  let binding ← tree.parent? function
  if tree.kind binding == .variableBinding && tree.field? function == some .value then
    namedChild? tree binding .name [.identifier]
  else none

/-- The name of the innermost function around a node. -/
def enclosingFunctionName? (id : Nat) : Option String :=
  ((tree.ancestors id).find? fun above => (tree.kind above).isFunctionLike).bind
    (functionName? tree)

/-- The name that the role of a slot suggests, valid or not. -/
def suggestedName? (slot : TypeSlot) : Option String :=
  match slot.role with
  | .variableBinding =>
      (namedChild? tree slot.owner .name [.identifier]).map (pascalCase · ++ "Type")
  | .functionParameter | .parameterProperty =>
      (namedChild? tree slot.owner .pattern [.identifier]).map (pascalCase · ++ "Type")
  | .destructuredObject =>
      some (match enclosingFunctionName? tree slot.owner with
        | some name => pascalCase name ++ "Props"
        | none => "PropsType")
  | .destructuredArray => some "ParamsType"
  | .classProperty =>
      (namedChild? tree slot.owner .name [.propertyIdentifier, .privateIdentifier]).map
        fun name => pascalCase (withoutPrivateMark name) ++ "Type"
  | .functionReturn =>
      let name := (functionName? tree slot.owner).or (assignedVariableName? tree slot.owner)
      some ((name.map pascalCase).getD "Function" ++ "ReturnType")
  | .unknown => none

/-- **The name that a slot suggests for the alias of its type.**  It is always an identifier: a
suggestion that is none gives way to the fallback. -/
def deriveName (slot : TypeSlot) : String :=
  ((suggestedName? tree slot).filter isValidIdentifier).getD fallbackName

end AliasHoist
