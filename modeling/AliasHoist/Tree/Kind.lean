/-!
# Kinds, fields and dialects

The vocabulary of the syntax tree.  The TypeScript grammar has some two hundred node kinds; the
rule looks at the thirty-three below, and every other one is `NodeKind.other`.

## Main Definitions

* `NodeKind`, with `NodeKind.ofGrammar` from the grammar's names;
* `Field`, the place a node has in its parent, with `Field.ofGrammar?`;
* `Dialect`, the grammar a source is read with, with `Dialect.ofExtension?`.
-/

namespace AliasHoist

/-- The node kinds that the rule tells apart. -/
inductive NodeKind where
  | program
  | block
  | exportWrapper
  | ambientWrapper
  | variableDeclaration
  | variableBinding
  | functionDeclaration
  | functionExpression
  | arrowFunction
  | methodDefinition
  | classDeclaration
  | classBody
  | classProperty
  | formalParameters
  | parameter
  | parameterModifier
  | typeSlot
  | objectTypeLiteral
  | typeAlias
  | interface
  | enumeration
  | importStatement
  | identifier
  | typeIdentifier
  | propertyIdentifier
  | privateIdentifier
  | typeParameters
  | typeParameter
  | thisType
  | objectPattern
  | arrayPattern
  | comment
  | error
  | other
  deriving DecidableEq, Repr

namespace NodeKind

/-- **The kind a grammar name stands for.**  Names outside the vocabulary are `other`. -/
def ofGrammar (name : String) : NodeKind :=
  match name with
  | "program" => program
  | "statement_block" => block
  | "export_statement" => exportWrapper
  | "ambient_declaration" => ambientWrapper
  | "lexical_declaration" | "variable_declaration" => variableDeclaration
  | "variable_declarator" => variableBinding
  | "function_declaration" | "generator_function_declaration" => functionDeclaration
  | "function_expression" | "function" | "generator_function" => functionExpression
  | "arrow_function" => arrowFunction
  | "method_definition" => methodDefinition
  | "class_declaration" | "abstract_class_declaration" => classDeclaration
  | "class_body" => classBody
  | "public_field_definition" => classProperty
  | "formal_parameters" => formalParameters
  | "required_parameter" | "optional_parameter" => parameter
  | "accessibility_modifier" | "override_modifier" | "readonly" => parameterModifier
  | "type_annotation" => typeSlot
  | "object_type" => objectTypeLiteral
  | "type_alias_declaration" => typeAlias
  | "interface_declaration" => interface
  | "enum_declaration" => enumeration
  | "import_statement" => importStatement
  | "identifier" => identifier
  | "type_identifier" => typeIdentifier
  | "property_identifier" => propertyIdentifier
  | "private_property_identifier" => privateIdentifier
  | "type_parameters" => typeParameters
  | "type_parameter" => typeParameter
  | "this_type" | "this" => thisType
  | "object_pattern" => objectPattern
  | "array_pattern" => arrayPattern
  | "comment" => comment
  | "ERROR" => error
  | _ => other

/-- The name a kind has in reports. -/
def label : NodeKind → String
  | program => "Program"
  | block => "Block"
  | exportWrapper => "ExportWrapper"
  | ambientWrapper => "AmbientWrapper"
  | variableDeclaration => "VariableDeclaration"
  | variableBinding => "VariableBinding"
  | functionDeclaration => "FunctionDeclaration"
  | functionExpression => "FunctionExpression"
  | arrowFunction => "ArrowFunction"
  | methodDefinition => "MethodDefinition"
  | classDeclaration => "ClassDeclaration"
  | classBody => "ClassBody"
  | classProperty => "ClassPropertyDefinition"
  | formalParameters => "FormalParameters"
  | parameter => "Parameter"
  | parameterModifier => "ParameterModifier"
  | typeSlot => "TypeAnnotation"
  | objectTypeLiteral => "ObjectTypeLiteral"
  | typeAlias => "TypeAliasDeclaration"
  | interface => "InterfaceDeclaration"
  | enumeration => "EnumDeclaration"
  | importStatement => "ImportStatement"
  | identifier => "Identifier"
  | typeIdentifier => "TypeIdentifier"
  | propertyIdentifier => "PropertyIdentifier"
  | privateIdentifier => "PrivatePropertyIdentifier"
  | typeParameters => "TypeParameters"
  | typeParameter => "TypeParameter"
  | thisType => "This"
  | objectPattern => "ObjectPattern"
  | arrayPattern => "ArrayPattern"
  | comment => "Comment"
  | error => "Error"
  | other => "Other"

/-- All kinds, in the order of their declaration. -/
def all : List NodeKind := [
  program, block, exportWrapper, ambientWrapper, variableDeclaration, variableBinding,
  functionDeclaration, functionExpression, arrowFunction, methodDefinition, classDeclaration,
  classBody, classProperty, formalParameters, parameter, parameterModifier, typeSlot,
  objectTypeLiteral, typeAlias, interface, enumeration, importStatement, identifier,
  typeIdentifier, propertyIdentifier, privateIdentifier, typeParameters, typeParameter, thisType,
  objectPattern, arrayPattern, comment, error, other]

/-- The list `all` leaves out no kind. -/
theorem mem_all (kind : NodeKind) : kind ∈ all := by cases kind <;> decide

/-- The kind with a given report name. -/
def ofLabel? (name : String) : Option NodeKind := all.find? (·.label == name)

/-- Function-like nodes have parameters and a return type that can be annotated. -/
def isFunctionLike : NodeKind → Bool
  | functionDeclaration | functionExpression | arrowFunction | methodDefinition => true
  | _ => false

/-- A wrapper holds one declaration: `export …` or `declare …`. -/
def isWrapper : NodeKind → Bool
  | exportWrapper | ambientWrapper => true
  | _ => false

/-- Declarations that an alias can be put in front of. -/
def isHoistTarget : NodeKind → Bool
  | variableDeclaration | functionDeclaration | classDeclaration | typeAlias | interface => true
  | _ => false

/-- Declarations that bind a name among the types of a file. -/
def declaresType : NodeKind → Bool
  | typeAlias | interface | classDeclaration | enumeration => true
  | _ => false

end NodeKind

/-- The grammar fields that the rule reads. -/
inductive Field where
  | name
  | type
  | value
  | pattern
  | parameters
  | returnType
  | body
  | declaration
  deriving DecidableEq, Repr

namespace Field

/-- The field a grammar name stands for. -/
def ofGrammar? (name : String) : Option Field :=
  match name with
  | "name" => some .name
  | "type" => some .type
  | "value" => some .value
  | "pattern" => some .pattern
  | "parameters" => some .parameters
  | "return_type" => some .returnType
  | "body" => some .body
  | "declaration" => some .declaration
  | _ => none

/-- The name a field has in reports. -/
def label : Field → String
  | name => "Name"
  | type => "Type"
  | value => "Value"
  | pattern => "Pattern"
  | parameters => "Parameters"
  | returnType => "ReturnType"
  | body => "Body"
  | declaration => "Declaration"

end Field

/-- The grammar that a source is read with. -/
inductive Dialect where
  | typeScript
  | tsx
  deriving DecidableEq, Repr

namespace Dialect

/-- The dialect of files with a given extension. -/
def ofExtension? (extension : String) : Option Dialect :=
  match extension with
  | "ts" | "mts" | "cts" => some typeScript
  | "tsx" => some tsx
  | _ => none

/-- The name of a dialect. -/
def label : Dialect → String
  | typeScript => "typescript"
  | tsx => "tsx"

end Dialect

end AliasHoist
