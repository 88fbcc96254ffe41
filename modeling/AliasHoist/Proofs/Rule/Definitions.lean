import AliasHoist.Proofs.Rule.Scoping

/-!
# Type definitions

The bodies of types are no place for an alias of their own: an object type inside a type alias, an
interface or another object type belongs to it.  The rule looks at the type slots of variables,
class properties and functions wherever they stand, and never asks what stands above them.  This
module says what that spares.

## Main Definitions

* `IsDefinition`, `StandsInDefinition`: what defines a type, and what stands inside of it;
* `Offers`: a node that offers the slot of a literal that the rule objects to;
* `ListsParameters`: what is assumed of the parser about the parameters of functions;
* `SparesDefinitions`: nothing that is reported stands in a definition.

## Main Statements

* `ancestors_of_offers`: the way up from a literal to what offers its slot meets no definition;
* `sparesDefinitions_iff`: definitions are spared exactly when nothing in them offers a slot to a
  literal that the rule objects to;
* `definitions_not_spared`: a function in the name of a member does.

### What is load-bearing

A literal is two or four levels below the node that offers its slot, and none of the levels between
is a definition.  So whether a literal stands in a definition is up to that node alone.
-/

namespace AliasHoist

variable (tree : SyntaxTree)

/-! ## Definitions of types -/

/-- A definition of a type, or part of one: a type alias, an interface or an object
type.  Interfaces and type aliases have their bodies as object types, so bodies are
counted twice, which does no harm. -/
def IsDefinition (id : Nat) : Prop :=
  tree.kind id ∈ [NodeKind.typeAlias, .interface, .objectTypeLiteral]

instance (id : Nat) : Decidable (IsDefinition tree id) :=
  inferInstanceAs (Decidable (tree.kind id ∈ [NodeKind.typeAlias, .interface, .objectTypeLiteral]))

/-- A node below a definition of a type, at any depth.  At any depth, because types
nest. -/
def StandsInDefinition (id : Nat) : Prop := ∃ above ∈ tree.ancestors id, IsDefinition tree above

/-- A node that offers the slot of a literal that the rule objects to.  The owner of the
slot can be another node: a parameter, two levels below the function that offers it. -/
def Offers (owner literal : Nat) : Prop :=
  ∃ slot ∈ slotsOf tree owner, offendingLiteral? tree slot = some literal

/-- **What is assumed of a parser**: the parameters of a function are a list of
parameters.  In the grammar it is so; a raw tree could be anything. -/
def ListsParameters : Prop :=
  ∀ id < tree.size, tree.field? id = some .parameters → tree.kind id = .formalParameters

instance : Decidable (ListsParameters tree) :=
  inferInstanceAs (Decidable (∀ id < tree.size,
    tree.field? id = some .parameters → tree.kind id = .formalParameters))

/-- **Nothing that is reported stands in a definition of a type.**  It speaks of what is
reported, fixable or not. -/
def SparesDefinitions (disambiguate : Bool) : Prop :=
  ∀ literal finding,
    (literal, finding) ∈ (offendingLiterals tree).zip (lint tree disambiguate) →
    ¬ StandsInDefinition tree literal

variable {tree}

/-- A node in a field is a node of the tree. -/
theorem lt_size_of_field {id : Nat} {field : Field} (h : tree.field? id = some field) :
    id < tree.size := by
  obtain ⟨node, hnode, _⟩ := Option.bind_eq_some_iff.mp h
  exact (Array.getElem?_eq_some_iff.mp hnode).1

/-- Definitions are told from slots, parameters and their lists by their kinds. -/
theorem IsDefinition.kind_ne {id : Nat} (h : IsDefinition tree id) :
    tree.kind id ≠ .typeSlot ∧ tree.kind id ≠ .parameter ∧ tree.kind id ≠ .formalParameters := by
  rw [IsDefinition] at h
  generalize tree.kind id = kind at h ⊢
  revert kind
  decide

/-- What offers a slot is no definition.  So a definition above the literal is strictly
above it or below it, and the next lemma excludes the latter. -/
theorem Offers.not_isDefinition {owner literal : Nat} (h : Offers tree owner literal) :
    ¬ IsDefinition tree owner := by
  intro definition
  obtain ⟨slot, mem, _⟩ := h
  rw [IsDefinition] at definition
  rcases List.mem_cons.mp definition with kind | definition
  · simp [slotsOf, kind] at mem
  · rcases List.mem_pair.mp definition with kind | kind <;> simp [slotsOf, kind] at mem

/-! ## The way up from a literal -/

section Linked

variable (linked : Linked tree.nodes)
include linked

/-- **The way up from a literal to the node that offers its slot** meets no definition.
Two levels for variables, properties and return types, four for parameters, each of a
known kind. -/
theorem ancestors_of_offers (lists : ListsParameters tree) {owner literal : Nat}
    (h : Offers tree owner literal) :
    ∃ between, tree.ancestors literal = between ++ owner :: tree.ancestors owner ∧
      ∀ node ∈ between, ¬ IsDefinition tree node := by
  obtain ⟨slot, mem, hliteral⟩ := h
  have fromLiteral := parent?_of_offendingLiteral? linked hliteral
  have fromSlot := parent?_node_of_mem_slotsOf linked mem
  obtain ⟨isSlot, _⟩ :=
    (literalIn?_eq_some_iff tree).mp ((offendingLiteral?_eq_some_iff tree).mp hliteral).1
  have slotClear : ¬ IsDefinition tree slot.node := fun definition => definition.kind_ne.1 isSlot
  have direct : slot.owner = owner →
      ∃ between, tree.ancestors literal = between ++ owner :: tree.ancestors owner ∧
        ∀ node ∈ between, ¬ IsDefinition tree node := by
    rintro rfl
    refine ⟨[slot.node], ?_, by simpa using slotClear⟩
    rw [tree.ancestors_of_some fromLiteral, tree.ancestors_of_some fromSlot]
    rfl
  rcases (mem_slotsOf_iff tree).mp mem with ⟨_, _, same, _⟩ | ⟨_, _, same, _⟩ | ⟨_, mem⟩ |
    ⟨_, _, same, _⟩
  · exact direct same
  · exact direct same
  · -- a parameter stands in the list of parameters of the function that offers its slot
    obtain ⟨parameters, list, inList, isParameter, _⟩ := (mem_parameterSlots_iff tree).mp mem
    have inField := ((childInField?_eq_some_iff tree).mp list).1
    have isList := lists parameters (lt_size_of_field inField) inField
    refine ⟨[slot.node, slot.owner, parameters], ?_, ?_⟩
    · rw [tree.ancestors_of_some fromLiteral, tree.ancestors_of_some fromSlot,
        tree.ancestors_of_some ((SyntaxTree.mem_children_iff linked).mp inList),
        tree.ancestors_of_some (parent?_of_childInField? linked list)]
      rfl
    · intro node among definition
      simp only [List.mem_cons, List.not_mem_nil, or_false] at among
      rcases among with rfl | rfl | rfl
      · exact slotClear definition
      · exact definition.kind_ne.2.1 isParameter
      · exact definition.kind_ne.2.2 isList
  · exact direct same

/-- A definition above a literal is above the node that offers its slot.  This is where
definitions come to be a matter of the owner alone. -/
theorem mem_ancestors_of_offers (lists : ListsParameters tree) {owner literal definition : Nat}
    (h : Offers tree owner literal) (above : definition ∈ tree.ancestors literal)
    (isDefinition : IsDefinition tree definition) : definition ∈ tree.ancestors owner := by
  obtain ⟨between, way, clear⟩ := ancestors_of_offers linked lists h
  rw [way, List.mem_append, List.mem_cons] at above
  rcases above with among | rfl | higher
  · exact absurd isDefinition (clear definition among)
  · exact absurd isDefinition h.not_isDefinition
  · exact higher

/-- What offers a slot stands above its literal.  A definition above it is therefore
above the literal too, which is the other half of the statement. -/
theorem owner_mem_ancestors (lists : ListsParameters tree) {owner literal : Nat}
    (h : Offers tree owner literal) : owner ∈ tree.ancestors literal := by
  obtain ⟨between, way, _⟩ := ancestors_of_offers linked lists h
  rw [way]
  simp

omit linked in
/-- The literals that the rule objects to are those that are offered a slot.  It joins
the two ways to speak of what the rule objects to, by places and by slots. -/
theorem offends_iff_exists_offers {literal : Nat} :
    Offends tree literal ↔ ∃ owner, Offers tree owner literal := by
  rw [← mem_offendingLiterals_iff, offendingLiterals, List.mem_map]
  constructor
  · rintro ⟨⟨slot, _⟩, mem, rfl⟩
    obtain ⟨inSlots, hliteral⟩ := (mem_offences_iff tree).mp mem
    obtain ⟨owner, offered⟩ := (mem_allSlots_iff tree).mp inSlots
    exact ⟨owner, slot, offered, hliteral⟩
  · rintro ⟨owner, slot, offered, hliteral⟩
    exact ⟨(slot, literal),
      (mem_offences_iff tree).mpr ⟨(mem_allSlots_iff tree).mpr ⟨owner, offered⟩, hliteral⟩, rfl⟩

end Linked

/-- **Definitions are spared exactly when nothing in them offers a slot.**  In a lowered tree whose
functions have lists of parameters, a definition above a literal that is reported stands above the
variable, the class property or the function that offers its slot; so the literals of types alone
are never reported, and one in a definition is reported as soon as such a node stands in between. -/
theorem sparesDefinitions_iff {source : String} {raw : RawTree} {hasErrors : Bool}
    {tree : SyntaxTree} (lowered : tree = .ofRaw source raw hasErrors)
    (lists : ListsParameters tree) (disambiguate : Bool) :
    (∀ literal finding definition,
      (literal, finding) ∈ (offendingLiterals tree).zip (lint tree disambiguate) →
      definition ∈ tree.ancestors literal → IsDefinition tree definition →
        ∃ owner, Offers tree owner literal ∧ owner ∈ tree.ancestors literal ∧
          definition ∈ tree.ancestors owner) ∧
    (SparesDefinitions tree disambiguate ↔
      ∀ owner literal, Offers tree owner literal → ¬ StandsInDefinition tree owner) := by
  have linked : Linked tree.nodes := lowered ▸ linked_ofRaw source raw hasErrors
  have offered : ∀ literal finding,
      (literal, finding) ∈ (offendingLiterals tree).zip (lint tree disambiguate) →
        ∃ owner, Offers tree owner literal := fun literal finding mem =>
    offends_iff_exists_offers.mp ((mem_offendingLiterals_iff tree).mp (List.of_mem_zip mem).1)
  refine ⟨?_, ?_, ?_⟩
  · intro literal finding definition mem above isDefinition
    obtain ⟨owner, offers⟩ := offered literal finding mem
    exact ⟨owner, offers, owner_mem_ancestors linked lists offers,
      mem_ancestors_of_offers linked lists offers above isDefinition⟩
  · rintro spares owner literal offers ⟨definition, above, isDefinition⟩
    obtain ⟨finding, mem⟩ := exists_mem_zip_of_offends linked disambiguate
      (offends_iff_exists_offers.mpr ⟨owner, offers⟩)
    refine spares literal finding mem ⟨definition, ?_, isDefinition⟩
    exact SyntaxTree.mem_ancestors_trans _ (owner_mem_ancestors linked lists offers) above
  · rintro clear literal finding mem ⟨definition, above, isDefinition⟩
    obtain ⟨owner, offers⟩ := offered literal finding mem
    exact clear owner literal offers
      ⟨definition, mem_ancestors_of_offers linked lists offers above isDefinition, isDefinition⟩

namespace Specimen

/-- A type alias with a function in the name of a member. -/
def definitionSource : String := "type AType = \x7b\n [k((p1: \x7b\n q: 1 \x7d) => 1)]: 1 \x7d;\n"

/-- What the parser says about `definitionSource`. -/
def definitionRaw : RawTree :=
  branch "program" none 0 48 [
    branch "type_alias_declaration" none 0 47 [
      token "type" none 0 4,
      branch "type_identifier" (some "name") 5 10 [],
      token "=" none 11 12,
      branch "object_type" (some "value") 13 46 [
        token "\x7b" none 13 14,
        branch "property_signature" none 16 44 [
          branch "computed_property_name" (some "name") 16 41 [
            token "[" none 16 17,
            branch "call_expression" none 17 40 [
              branch "identifier" (some "function") 17 18 [],
              branch "arguments" (some "arguments") 18 40 [
                token "(" none 18 19,
                branch "arrow_function" none 19 39 [
                  branch "formal_parameters" (some "parameters") 19 34 [
                    token "(" none 19 20,
                    branch "required_parameter" none 20 33 [
                      branch "identifier" (some "pattern") 20 22 [],
                      branch "type_annotation" (some "type") 22 33 [
                        token ":" none 22 23,
                        branch "object_type" none 24 33 [
                          token "\x7b" none 24 25,
                          branch "property_signature" none 27 31 [
                            branch "property_identifier" (some "name") 27 28 [],
                            branch "type_annotation" (some "type") 28 31 [
                              token ":" none 28 29,
                              branch "literal_type" none 30 31 [
                                branch "number" none 30 31 []]]],
                          token "\x7d" none 32 33]]],
                    token ")" none 33 34],
                  token "=>" none 35 37,
                  branch "number" (some "body") 38 39 []],
                token ")" none 39 40]],
            token "]" none 40 41],
          branch "type_annotation" (some "type") 41 44 [
            token ":" none 41 42,
            branch "literal_type" none 43 44 [
              branch "number" none 43 44 []]]],
        token "\x7d" none 45 46],
      token ";" none 46 47]]

theorem listsParameters_definition :
    ListsParameters (.ofRaw definitionSource definitionRaw false) := by
  decide +kernel

theorem offends_definition : Offends (.ofRaw definitionSource definitionRaw false) 14 :=
  (mem_offendingLiterals_iff _).mp (by decide +kernel)

end Specimen

/-- The definitions of the literal at node 14 stand above the function that offers its slot. -/
theorem sparesDefinitions_iff_specimen :
    ListsParameters (.ofRaw Specimen.definitionSource Specimen.definitionRaw false) ∧
      1 ∈ (SyntaxTree.ofRaw Specimen.definitionSource Specimen.definitionRaw false).ancestors 14 ∧
      ∃ owner, Offers (.ofRaw Specimen.definitionSource Specimen.definitionRaw false) owner 14 ∧
        1 ∈ (SyntaxTree.ofRaw Specimen.definitionSource Specimen.definitionRaw false).ancestors
          owner := by
  have linked := linked_ofRaw Specimen.definitionSource Specimen.definitionRaw false
  have above : 1 ∈ (SyntaxTree.ofRaw Specimen.definitionSource
      Specimen.definitionRaw false).ancestors 14 := by decide +kernel
  obtain ⟨finding, mem⟩ := exists_mem_zip_of_offends linked true Specimen.offends_definition
  obtain ⟨owner, offers, _, higher⟩ := (sparesDefinitions_iff rfl
    Specimen.listsParameters_definition true).1 14 finding 1 mem above (by decide +kernel)
  exact ⟨Specimen.listsParameters_definition, above, owner, offers, higher⟩

/-- **Definitions are not always spared**: a function in the name of a member has parameters with
types of their own. -/
theorem definitions_not_spared :
    ¬ SparesDefinitions (.ofRaw Specimen.definitionSource Specimen.definitionRaw false) true := by
  intro spares
  have linked := linked_ofRaw Specimen.definitionSource Specimen.definitionRaw false
  obtain ⟨finding, mem⟩ := exists_mem_zip_of_offends linked true Specimen.offends_definition
  exact spares 14 finding mem ⟨1, by decide +kernel, by decide +kernel⟩

end AliasHoist
