import AliasHoist.Proofs.Editor.Session
import AliasHoist.Proofs.Tree.Preorder

/-!
# What a literal loses when it is hoisted

A literal that moves in front of its anchor leaves scopes behind: type parameters and `this`, types that
are declared in the blocks on the way, parameters whose types it asks for.  The fix is withheld for
the first two only.  This module says what is left behind without the search for it, when a fix is
withheld, and when hoisting therefore keeps the meaning of every local name.

## Main Definitions

* `IsLeft`: the scopes that are left behind;
* `IsCaptured`: a node of a literal that is `this`, or names a type parameter that is left behind;
* `LosesTypeParameter`: a literal with such a node;
* `LosesLocalName`: it uses a type of a block, or the type of a parameter, that is left behind;
* `KeepsLocalNames`: no literal that is hoisted loses a local name.

## Main Statements

* `capturedName?_eq_none_iff`: the search finds what is lost among type parameters;
* `keepsLocalNames_iff`: hoisting keeps local names exactly where those who would lose one also lose a
  type parameter;
* `local_names_lost`: it does not always do so.
-/

namespace AliasHoist

variable (tree : SyntaxTree)

/-! ## Scopes left behind -/

/-- A scope around a literal that is left behind: the anchor, or a node below it.  The
anchor counts, since a declaration in front of it is outside of its type parameters. -/
def IsLeft (literal anchor scope : Nat) : Prop :=
  scope ∈ tree.ancestors literal ∧ anchor ∈ scope :: tree.ancestors scope

variable {tree} in
/-- **The scopes that are looked at are those left behind.**  The walk stops at the
anchor, so the hypothesis is what makes it stop at all. -/
theorem mem_scopesLeft_iff {literal anchor scope : Nat} (above : anchor ∈ tree.ancestors literal) :
    scope ∈ scopesLeft tree literal anchor ↔ IsLeft tree literal anchor scope := by
  induction literal using Nat.strongRecOn with
  | _ literal ih =>
      obtain ⟨parent, hp, mem⟩ := tree.mem_ancestors_iff.mp above
      rw [scopesLeft, IsLeft, tree.ancestors_of_some hp]
      by_cases found : parent = anchor
      · subst found
        -- what is above the anchor does not have it above itself
        have end' : ∀ scope ∈ tree.ancestors parent, parent ∉ scope :: tree.ancestors scope := by
          intro scope higher mem
          have lt := tree.lt_of_mem_ancestors higher
          rcases List.mem_cons.mp mem with rfl | back
          · omega
          · have := tree.lt_of_mem_ancestors back
            omega
        rw [List.takeWhile_cons_of_neg (by simp), List.nil_append, List.mem_singleton]
        constructor
        · rintro rfl
          exact ⟨List.mem_cons_self, List.mem_cons_self⟩
        · rintro ⟨mem, back⟩
          rcases List.mem_cons.mp mem with rfl | higher
          · rfl
          · exact absurd back (end' scope higher)
      · have further : anchor ∈ tree.ancestors parent :=
          (List.mem_cons.mp mem).resolve_left (Ne.symm found)
        have rest := ih parent (tree.parent_lt hp) further
        rw [scopesLeft, IsLeft] at rest
        rw [List.takeWhile_cons_of_pos (by simpa using found), List.cons_append, List.mem_cons, rest]
        constructor
        · rintro (rfl | ⟨mem, below⟩)
          · exact ⟨List.mem_cons_self, List.mem_cons_of_mem _ further⟩
          · exact ⟨List.mem_cons_of_mem _ mem, below⟩
        · rintro ⟨mem, below⟩
          rcases List.mem_cons.mp mem with rfl | higher
          · exact Or.inl rfl
          · exact Or.inr ⟨higher, below⟩

/-! ## Type parameters -/

/-- **The type parameters of a node**: the names in the lists of type parameters among
its children.  Constraints and defaults of a parameter are not looked at. -/
def DeclaresTypeParameter (scope : Nat) (name : String) : Prop :=
  ∃ list ∈ tree.children scope, tree.kind list = .typeParameters ∧
    ∃ parameter ∈ tree.children list, tree.kind parameter = .typeParameter ∧
      ∃ id, IsFirstChild tree (tree.field? · = some .name) parameter id ∧ tree.text id = name

theorem mem_typeParameterNames_iff {scope : Nat} {name : String} :
    name ∈ typeParameterNames tree scope ↔ DeclaresTypeParameter tree scope name := by
  simp only [typeParameterNames, DeclaresTypeParameter, List.mem_map, List.mem_filterMap,
    List.mem_filter, List.mem_flatMap, beq_iff_eq, childInField?_eq_some_iff]
  constructor
  · rintro ⟨id, ⟨parameter, ⟨⟨list, ⟨hlist, isList⟩, mem⟩, isParameter⟩, first⟩, same⟩
    exact ⟨list, hlist, isList, parameter, mem, isParameter, id, first, same⟩
  · rintro ⟨list, hlist, isList, parameter, mem, isParameter, id, first, same⟩
    exact ⟨id, ⟨parameter, ⟨⟨list, ⟨hlist, isList⟩, mem⟩, isParameter⟩, first⟩, same⟩

theorem capturedAt?_ne_none_iff {bound : List String} {id : Nat} :
    capturedAt? tree bound id ≠ none ↔
      tree.kind id = .thisType ∨ tree.kind id = .typeIdentifier ∧ tree.text id ∈ bound := by
  rw [capturedAt?]
  cases tree.kind id <;> simp

/-- **A node of a literal that is captured**: it is `this`, or it has the name of a type
parameter of a scope that is left behind.  It is the exact condition under which the
program withholds a fix that has an anchor. -/
inductive IsCaptured (literal anchor id : Nat) : Prop where
  | this (inside : literal ∈ tree.ancestors id) (kind : tree.kind id = .thisType)
  | typeParameter {scope : Nat} (inside : literal ∈ tree.ancestors id)
      (kind : tree.kind id = .typeIdentifier) (left : IsLeft tree literal anchor scope)
      (declares : DeclaresTypeParameter tree scope (tree.text id))

/-- **A literal loses a type parameter** when one of its nodes is captured: once it is hoisted, the node
names something else than before, or nothing at all. -/
def LosesTypeParameter (literal anchor : Nat) : Prop := ∃ id, IsCaptured tree literal anchor id

section Captured

variable {tree} {literal anchor id : Nat}

theorem IsCaptured.inside (h : IsCaptured tree literal anchor id) :
    literal ∈ tree.ancestors id := by
  cases h with
  | this inside _ => exact inside
  | typeParameter inside _ _ _ => exact inside

/-- Of the nodes of a literal, the search stops at those that are captured.  The names
are collected first and compared afterwards, which comes to the same. -/
theorem capturedAt?_scopesLeft_ne_none_iff (above : anchor ∈ tree.ancestors literal)
    (inside : literal ∈ tree.ancestors id) :
    capturedAt? tree ((scopesLeft tree literal anchor).flatMap (typeParameterNames tree)) id ≠ none ↔
      IsCaptured tree literal anchor id := by
  rw [capturedAt?_ne_none_iff]
  constructor
  · rintro (kind | ⟨kind, bound⟩)
    · exact .this inside kind
    · obtain ⟨scope, left, declared⟩ := List.mem_flatMap.mp bound
      exact .typeParameter inside kind ((mem_scopesLeft_iff above).mp left)
        ((mem_typeParameterNames_iff tree).mp declared)
  · intro captured
    cases captured with
    | this _ kind => exact Or.inl kind
    | @typeParameter scope _ kind left declares =>
        refine Or.inr ⟨kind, List.mem_flatMap.mpr ⟨scope, ?_, ?_⟩⟩
        · exact (mem_scopesLeft_iff above).mpr left
        · exact (mem_typeParameterNames_iff tree).mpr declares

/-- **The search finds what is lost among type parameters**, and nothing else.  A name
that is found need not be the only one that is lost. -/
theorem capturedName?_eq_none_iff (ordered : InOrder tree.nodes)
    (above : anchor ∈ tree.ancestors literal) :
    capturedName? tree literal anchor = none ↔ ¬ LosesTypeParameter tree literal anchor := by
  rw [capturedName?, List.findSome?_eq_none_iff, LosesTypeParameter, not_exists]
  constructor
  · intro nothing id captured
    have mem := (SyntaxTree.mem_descendants_iff ordered).mpr captured.inside
    exact (capturedAt?_scopesLeft_ne_none_iff above captured.inside).mpr captured (nothing id mem)
  · intro kept id mem
    have inside := (SyntaxTree.mem_descendants_iff ordered).mp mem
    by_contra found
    exact kept id ((capturedAt?_scopesLeft_ne_none_iff above inside).mp found)

end Captured

/-! ## Local names -/

/-- The statements of a block, with what stands under `export` or `declare` among them.
Declarations of types are visible in the whole block, also before they are made. -/
inductive IsStatementOf (block : Nat) : Nat → Prop where
  | direct {id : Nat} (mem : id ∈ tree.children block) : IsStatementOf block id
  | wrapped {wrapper id : Nat} (outer : IsStatementOf block wrapper)
      (isWrapper : (tree.kind wrapper).isWrapper = true) (mem : id ∈ tree.children wrapper) :
      IsStatementOf block id

/-- A node that asks for the type of what is below it, `typeof x`. -/
def IsTypeQuery (id : Nat) : Prop := tree.nodes[id]?.map (·.grammarKind) = some "type_query"

/-- **A literal loses a local name**: it uses a type that is declared in a block between
it and the anchor, or asks for the type of a parameter of a function that is left
behind.  Such a name means something else in front of the anchor, or nothing, just like
a type parameter. -/
inductive LosesLocalName (literal anchor : Nat) : Prop where
  | type {id block declaration name : Nat} (inside : literal ∈ tree.ancestors id)
      (kind : tree.kind id = .typeIdentifier) (around : block ∈ tree.ancestors literal)
      (below : anchor ∈ tree.ancestors block) (isBlock : tree.kind block = .block)
      (statement : IsStatementOf tree block declaration)
      (declares : tree.kind declaration ∈ [.typeAlias, .interface, .classDeclaration, .enumeration])
      (first : IsFirstChild tree (tree.field? · = some .name) declaration name)
      (same : tree.text id = tree.text name)
  | parameter {id query function parameters owner pattern : Nat}
      (inside : literal ∈ tree.ancestors query) (isQuery : IsTypeQuery tree query)
      (asked : tree.parent? id = some query) (kind : tree.kind id = .identifier)
      (left : IsLeft tree literal anchor function)
      (functionKind : (tree.kind function).isFunctionLike = true)
      (list : IsFirstChild tree (tree.field? · = some .parameters) function parameters)
      (mem : owner ∈ tree.children parameters) (isParameter : tree.kind owner = .parameter)
      (first : IsFirstChild tree (tree.field? · = some .pattern) owner pattern)
      (isIdentifier : tree.kind pattern = .identifier)
      (same : tree.text id = tree.text pattern)

/-- The anchor that a literal would be hoisted to. -/
def HoistsTo (literal anchor : Nat) : Prop :=
  ∃ place, tree.parent? literal = some place ∧ anchor? tree place = some anchor

/-- **No literal that is hoisted loses a local name.**  It is what a user may expect of
every fix, and `local_names_lost` shows that it does not hold. -/
def KeepsLocalNames (disambiguate : Bool) : Prop :=
  ∀ literal finding anchor,
    (literal, finding) ∈ (offendingLiterals tree).zip (lint tree disambiguate) →
    finding.isFixable = true → HoistsTo tree literal anchor → ¬ LosesLocalName tree literal anchor

variable {tree}

/-- The anchor of a literal stands above it.  It is not the literal, since that is no
declaration. -/
theorem HoistsTo.mem_ancestors {literal anchor : Nat} (h : HoistsTo tree literal anchor) :
    anchor ∈ tree.ancestors literal := by
  obtain ⟨place, parent, hanchor⟩ := h
  rw [tree.ancestors_of_some parent]
  exact mem_of_anchor? hanchor

/-- A literal has one anchor at most.  So one can speak of the anchor that a finding is
about. -/
theorem HoistsTo.unique {literal anchor anchor' : Nat} (h : HoistsTo tree literal anchor)
    (h' : HoistsTo tree literal anchor') : anchor = anchor' := by
  obtain ⟨place, parent, hanchor⟩ := h
  obtain ⟨place', parent', hanchor'⟩ := h'
  rw [parent, Option.some.injEq] at parent'
  subst parent'
  exact Option.some.inj (hanchor.symm.trans hanchor')

/-- **When a literal is hoisted**: it has an anchor, and loses no type parameter in
front of it.  The order of the nodes is needed since the search goes over a run of
numbers. -/
theorem Reports.isFixable_iff (ordered : InOrder tree.nodes) {literal : Nat} {finding : Finding}
    (h : Reports tree literal finding) :
    finding.isFixable = true ↔
      ∃ anchor, HoistsTo tree literal anchor ∧ ¬ LosesTypeParameter tree literal anchor := by
  rw [Finding.isFixable_iff, h.fix_eq_ok_iff]
  constructor
  · rintro ⟨place, anchor, parent, hanchor, none⟩
    have hoists : HoistsTo tree literal anchor := ⟨place, parent, hanchor⟩
    exact ⟨anchor, hoists, (capturedName?_eq_none_iff ordered hoists.mem_ancestors).mp none⟩
  · rintro ⟨anchor, hoists, kept⟩
    have none := (capturedName?_eq_none_iff ordered hoists.mem_ancestors).mpr kept
    obtain ⟨place, parent, hanchor⟩ := hoists
    exact ⟨place, anchor, parent, hanchor, none⟩

section Linked

variable (linked : Linked tree.nodes) (disambiguate : Bool)
include linked

variable {disambiguate} in
theorem reports_of_mem_zip {literal : Nat} {finding : Finding}
    (mem : (literal, finding) ∈ (offendingLiterals tree).zip (lint tree disambiguate)) :
    Reports tree literal finding :=
  List.forall₂_zip (forall₂_lint linked disambiguate) mem

/-- Every literal that offends has its finding. -/
theorem exists_mem_zip_of_offends {literal : Nat} (h : Offends tree literal) :
    ∃ finding, (literal, finding) ∈ (offendingLiterals tree).zip (lint tree disambiguate) := by
  have oneByOne := forall₂_lint linked disambiguate
  obtain ⟨⟨i, lt⟩, rfl⟩ := List.mem_iff_get.mp ((mem_offendingLiterals_iff tree).mpr h)
  have lt' : i < (lint tree disambiguate).length := oneByOne.length_eq ▸ lt
  refine ⟨(lint tree disambiguate)[i], List.mem_iff_getElem.mpr ⟨i, ?_, ?_⟩⟩
  · rw [List.length_zip]
    exact Nat.lt_min.mpr ⟨lt, lt'⟩
  · simp

/-- One literal that is hoisted and loses a local name is enough.  It turns a specimen
into a counterexample. -/
theorem not_keepsLocalNames {literal anchor : Nat} (offends : Offends tree literal)
    (hoists : HoistsTo tree literal anchor) (none : capturedName? tree literal anchor = none)
    (lost : LosesLocalName tree literal anchor) : ¬ KeepsLocalNames tree disambiguate := by
  intro keeps
  obtain ⟨finding, mem⟩ := exists_mem_zip_of_offends linked disambiguate offends
  refine keeps literal finding anchor mem ?_ hoists lost
  obtain ⟨place, parent, hanchor⟩ := hoists
  rw [Finding.isFixable_iff, (reports_of_mem_zip linked mem).fix_eq_ok_iff]
  exact ⟨place, anchor, parent, hanchor, none⟩

end Linked

/-- **Hoisting keeps local names exactly where those who would lose one also lose a type parameter.**
The fix for a literal of a lowered tree is withheld when it has no anchor, or uses `this` or a type
parameter that is left behind; so a local name is lost when a literal with an anchor uses one and
uses neither. -/
theorem keepsLocalNames_iff (source : String) (raw : RawTree) (hasErrors disambiguate : Bool) :
    (∀ literal finding,
      (literal, finding) ∈ (offendingLiterals (.ofRaw source raw hasErrors)).zip
        (lint (.ofRaw source raw hasErrors) disambiguate) →
      (finding.isFixable = true ↔ ∃ anchor, HoistsTo (.ofRaw source raw hasErrors) literal anchor ∧
        ¬ LosesTypeParameter (.ofRaw source raw hasErrors) literal anchor)) ∧
    (KeepsLocalNames (.ofRaw source raw hasErrors) disambiguate ↔
      ∀ literal anchor, Offends (.ofRaw source raw hasErrors) literal →
        HoistsTo (.ofRaw source raw hasErrors) literal anchor →
        LosesLocalName (.ofRaw source raw hasErrors) literal anchor →
        LosesTypeParameter (.ofRaw source raw hasErrors) literal anchor) := by
  have linked := linked_ofRaw source raw hasErrors
  have ordered := inOrder_ofRaw source raw hasErrors
  refine ⟨fun literal finding mem => (reports_of_mem_zip linked mem).isFixable_iff ordered, ?_, ?_⟩
  · intro keeps literal anchor offends hoists lost
    by_contra kept
    have none := (capturedName?_eq_none_iff ordered hoists.mem_ancestors).mpr kept
    exact not_keepsLocalNames linked disambiguate offends hoists none lost keeps
  · intro withheld literal finding anchor mem fixable hoists lost
    obtain ⟨found, hfound, kept⟩ := ((reports_of_mem_zip linked mem).isFixable_iff ordered).mp fixable
    obtain rfl := hoists.unique hfound
    have offends := (mem_offendingLiterals_iff _).mp (List.of_mem_zip mem).1
    exact kept (withheld literal anchor offends hoists lost)

namespace Specimen

/-- A literal that uses a type of the function that it is returned from. -/
def blockSource : String :=
  "const f = () => \x7b\n  type Local = string;\n  return (x: \x7b\n    a: Local;\n  \x7d) => x;\n\x7d;\n"

/-- What the parser says about `blockSource`. -/
def blockRaw : RawTree :=
  branch "program" none 0 84 [
    branch "lexical_declaration" none 0 83 [
      token "const" (some "kind") 0 5,
      branch "variable_declarator" none 6 82 [
        branch "identifier" (some "name") 6 7 [],
        token "=" none 8 9,
        branch "arrow_function" (some "value") 10 82 [
          branch "formal_parameters" (some "parameters") 10 12 [
            token "(" none 10 11,
            token ")" none 11 12],
          token "=>" none 13 15,
          branch "statement_block" (some "body") 16 82 [
            token "\x7b" none 16 17,
            branch "type_alias_declaration" none 20 40 [
              token "type" none 20 24,
              branch "type_identifier" (some "name") 25 30 [],
              token "=" none 31 32,
              branch "predefined_type" (some "value") 33 39 [token "string" none 33 39],
              token ";" none 39 40],
            branch "return_statement" none 43 80 [
              token "return" none 43 49,
              branch "arrow_function" none 50 79 [
                branch "formal_parameters" (some "parameters") 50 74 [
                  token "(" none 50 51,
                  branch "required_parameter" none 51 73 [
                    branch "identifier" (some "pattern") 51 52 [],
                    branch "type_annotation" (some "type") 52 73 [
                      token ":" none 52 53,
                      branch "object_type" none 54 73 [
                        token "\x7b" none 54 55,
                        branch "property_signature" none 60 68 [
                          branch "property_identifier" (some "name") 60 61 [],
                          branch "type_annotation" (some "type") 61 68 [
                            token ":" none 61 62,
                            branch "type_identifier" none 63 68 []]],
                        token ";" none 68 69,
                        token "\x7d" none 72 73]]],
                  token ")" none 73 74],
                token "=>" none 75 77,
                branch "identifier" (some "body") 78 79 []],
              token ";" none 79 80],
            token "\x7d" none 81 82]]],
      token ";" none 82 83]]

/-- A literal that asks for the type of the parameter before it. -/
def querySource : String := "function f(x: number, opts: \x7b\n  a: typeof x;\n\x7d) \x7b\x7d\n"

/-- What the parser says about `querySource`. -/
def queryRaw : RawTree :=
  branch "program" none 0 51 [
    branch "function_declaration" none 0 50 [
      token "function" none 0 8,
      branch "identifier" (some "name") 9 10 [],
      branch "formal_parameters" (some "parameters") 10 47 [
        token "(" none 10 11,
        branch "required_parameter" none 11 20 [
          branch "identifier" (some "pattern") 11 12 [],
          branch "type_annotation" (some "type") 12 20 [
            token ":" none 12 13,
            branch "predefined_type" none 14 20 [token "number" none 14 20]]],
        token "," none 20 21,
        branch "required_parameter" none 22 46 [
          branch "identifier" (some "pattern") 22 26 [],
          branch "type_annotation" (some "type") 26 46 [
            token ":" none 26 27,
            branch "object_type" none 28 46 [
              token "\x7b" none 28 29,
              branch "property_signature" none 32 43 [
                branch "property_identifier" (some "name") 32 33 [],
                branch "type_annotation" (some "type") 33 43 [
                  token ":" none 33 34,
                  branch "type_query" none 35 43 [
                    token "typeof" none 35 41,
                    branch "identifier" none 42 43 []]]],
              token ";" none 43 44,
              token "\x7d" none 45 46]]],
        token ")" none 46 47],
      branch "statement_block" (some "body") 48 50 [
        token "\x7b" none 48 49,
        token "\x7d" none 49 50]]]

/-- The type of the block is declared by node 7 and used by node 20. -/
theorem losesLocalName_block : LosesLocalName (.ofRaw blockSource blockRaw false) 16 1 :=
  @LosesLocalName.type _ 16 1 20 6 7 8 (by decide +kernel) (by decide +kernel) (by decide +kernel)
    (by decide +kernel) (by decide +kernel) (.direct (by decide +kernel)) (by decide +kernel)
    ((childInField?_eq_some_iff _).mp (by decide +kernel)) (by decide +kernel)

/-- Node 16 asks for the type of the parameter with the pattern at node 5. -/
theorem losesLocalName_query : LosesLocalName (.ofRaw querySource queryRaw false) 11 1 := by
  have list : (SyntaxTree.ofRaw querySource queryRaw false).childInField? 1 .parameters = some 3 := by
    decide +kernel
  have first : (SyntaxTree.ofRaw querySource queryRaw false).childInField? 4 .pattern = some 5 := by
    decide +kernel
  exact @LosesLocalName.parameter _ 11 1 16 15 1 3 4 5 (by decide +kernel)
    (by unfold IsTypeQuery; decide +kernel) (by decide +kernel) (by decide +kernel)
    ⟨by decide +kernel, by decide +kernel⟩ (by decide +kernel)
    ((childInField?_eq_some_iff _).mp list) (by decide +kernel) (by decide +kernel)
    ((childInField?_eq_some_iff _).mp first) (by decide +kernel) (by decide +kernel)

end Specimen

/-- **Local names can be lost**: a type of a block, or the type of a parameter, that nothing in the
literal keeps from being left behind. -/
theorem local_names_lost :
    ¬ KeepsLocalNames (.ofRaw Specimen.blockSource Specimen.blockRaw false) true ∧
      ¬ KeepsLocalNames (.ofRaw Specimen.querySource Specimen.queryRaw false) true := by
  constructor
  · have offends : Offends (.ofRaw Specimen.blockSource Specimen.blockRaw false) 16 :=
      (mem_offendingLiterals_iff _).mp (by decide +kernel)
    exact not_keepsLocalNames (linked_ofRaw _ _ _) true offends
      ⟨15, by decide +kernel, by decide +kernel⟩ (by decide +kernel) Specimen.losesLocalName_block
  · have offends : Offends (.ofRaw Specimen.querySource Specimen.queryRaw false) 11 :=
      (mem_offendingLiterals_iff _).mp (by decide +kernel)
    exact not_keepsLocalNames (linked_ofRaw _ _ _) true offends
      ⟨10, by decide +kernel, by decide +kernel⟩ (by decide +kernel) Specimen.losesLocalName_query

end AliasHoist
