import AliasHoist.Proofs.Editor.Session
import AliasHoist.Proofs.Naming.Capitals
import AliasHoist.Proofs.Naming.Casing
import AliasHoist.Proofs.Naming.Identifiers

/-!
# Pascal case of identifiers

The Pascal-case form of an identifier is one again, unless a letter is upper-cased whose upper-case form
has combining marks.  So a variable or a parameter with a plain name lends it to the alias of its type,
with this one exception; there the alias gets the fallback name.

## Main Definitions

* `RaisesMarked`: a marked letter stands where letters are upper-cased;
* `IsNameOf`: the node that has the name of a variable or parameter.

## Main Statements

* `continues_caseFrom_iff`: what collapsing underscores makes of an identifier;
* `isValidIdentifier_pascalCase_iff`: when the Pascal-case form of an identifier is one;
* `identifiers_lend_names`: which name a variable or parameter gives to the alias of its type;
* `marked_name_lost`: the exception happens.
-/

namespace AliasHoist

open Text

/-! ## Marked letters in a text -/

/-- **A marked letter stands right behind an underscore.**  At the start of the text it
is the character before the text that counts.  These are the places where a letter of a
name is upper-cased; elsewhere a marked letter is kept as it is. -/
def RaisesMarked (before : Option Char) (chars : List Char) : Prop :=
  ∃ i letter, chars[i]? = some letter ∧ letter.toNat ∈ markedLetters ∧
    (if i = 0 then before else chars[i - 1]?) = some '_'

/-- A marked letter is raised at the start of a text or in the rest of it, in front of
which the first character stands.  So the property can be followed along a text as the
change of case is. -/
theorem raisesMarked_cons_iff {before : Option Char} {c : Char} {rest : List Char} :
    RaisesMarked before (c :: rest) ↔
      (before = some '_' ∧ c.toNat ∈ markedLetters) ∨ RaisesMarked (some c) rest := by
  constructor
  · rintro ⟨i, letter, here, marked, mark⟩
    cases i with
    | zero =>
        obtain rfl := Option.some.inj here
        exact .inl ⟨mark, marked⟩
    | succ i =>
        refine .inr ⟨i, letter, here, marked, ?_⟩
        cases i with
        | zero => exact mark
        | succ i => exact mark
  · rintro (⟨mark, marked⟩ | ⟨i, letter, here, marked, mark⟩)
    · exact ⟨0, c, rfl, marked, mark⟩
    · refine ⟨i + 1, letter, here, marked, ?_⟩
      cases i with
      | zero => exact mark
      | succ i => exact mark

/-- Marked letters are letters. -/
theorem isAlphabetic_of_marked {c : Char} (marked : c.toNat ∈ markedLetters) :
    isAlphabetic c = true := inRuns_of_mem_markedLetters marked

theorem underscore_unmarked : '_'.toNat ∉ markedLetters := by decide

/-- **The upper-case form of a letter may stand in an identifier** unless the letter is
a marked one.  The marked letters are listed by their numbers, and the list has been
compared with the table of upper-case forms once and for all. -/
theorem continues_uppercase_iff {c : Char} (letter : isAlphabetic c = true) :
    (∀ d ∈ uppercase c, continuesIdentifier d = true) ↔ c.toNat ∉ markedLetters := by
  obtain ⟨first, rest, form, start, -, continues⟩ := exists_uppercase_eq letter
  rw [form, List.forall_mem_cons, continues]
  exact and_iff_right (continuesIdentifier_of_isAlphabetic start)

/-- What becomes of a character may stand in an identifier, unless that is a marked
letter behind an underscore.  An underscore that is dropped leaves nothing to be
checked. -/
theorem continues_caseBetween_iff {before after : Option Char} {c : Char}
    (continues : continuesIdentifier c = true) :
    (∀ d ∈ caseBetween before c after, continuesIdentifier d = true) ↔
      ¬ (before = some '_' ∧ c.toNat ∈ markedLetters) := by
  rw [caseBetween]
  split
  · rename_i dropped
    simp only [dropped.1, underscore_unmarked, and_false, not_false_eq_true, iff_true]
    simp
  · split
    · rename_i raised
      rw [continues_uppercase_iff raised.1]
      simp [raised.2]
    · rename_i kept
      have stays : ¬ (before = some '_' ∧ c.toNat ∈ markedLetters) := fun h =>
        kept ⟨isAlphabetic_of_marked h.2, h.1⟩
      simp [continues, stays]

/-- **What collapsing underscores makes of an identifier** may stand in one, unless a
marked letter is upper-cased.  The induction is on the text, with the character before
it at hand. -/
theorem continues_caseFrom_iff {before : Option Char} {chars : List Char}
    (continues : ∀ c ∈ chars, continuesIdentifier c = true) :
    (∀ d ∈ caseFrom before chars, continuesIdentifier d = true) ↔ ¬ RaisesMarked before chars := by
  induction chars generalizing before with
  | nil => simp [RaisesMarked]
  | cons c rest ih =>
      obtain ⟨first, others⟩ := List.forall_mem_cons.mp continues
      rw [caseFrom_cons, List.forall_mem_append, continues_caseBetween_iff first, ih others,
        raisesMarked_cons_iff, not_or]

/-! ## The first character -/

/-- **Upper-casing the first character** leaves an identifier one, unless that is a
marked letter.  Nothing is asked of the rest but that it may stand in an identifier. -/
theorem isValidIdentifier_capitalize_iff {name : String} {first : Char} {rest : List Char}
    (chars : name.toList = capitalize (first :: rest)) (starts : startsIdentifier first = true) :
    isValidIdentifier name = true ↔
      first.toNat ∉ markedLetters ∧ ∀ d ∈ rest, continuesIdentifier d = true := by
  unfold isValidIdentifier
  rw [chars, capitalize]
  by_cases letter : isAlphabetic first = true
  · obtain ⟨head, tail, form, start, -, continues⟩ := exists_uppercase_eq letter
    rw [form, ← continues]
    simp [startsIdentifier, start]
  · -- an underscore or a dollar sign is its own upper-case form
    have plain : uppercase first = [first] ∧ first.toNat ∉ markedLetters := by
      simp only [startsIdentifier, letter, Bool.false_or, Bool.or_eq_true, beq_iff_eq] at starts
      rcases starts with rfl | rfl
      · decide +kernel
      · decide +kernel
    rw [plain.1]
    simp [starts, plain.2]

/-- The first character of an identifier, when underscores have been collapsed.  It is
the first character that was there, or what becomes of the letter behind an underscore
that is dropped. -/
theorem exists_caseFrom_eq {c : Char} {rest : List Char} (starts : startsIdentifier c = true)
    (continues : ∀ d ∈ rest, continuesIdentifier d = true) :
    ∃ first others, caseFrom none (c :: rest) = first :: others ∧ startsIdentifier first = true ∧
      ((first.toNat ∉ markedLetters ∧ ∀ d ∈ others, continuesIdentifier d = true) ↔
        ¬ RaisesMarked (some '_') (c :: rest)) := by
  by_cases dropped : c = '_' ∧ rest.head?.any isAlphabetic = true
  · -- the letter behind the underscore comes first
    obtain ⟨rfl, letter⟩ := dropped
    obtain ⟨next, head, letter⟩ := (Option.any_eq_true _ _).mp letter
    obtain ⟨rest, rfl⟩ := List.head?_eq_some_iff.mp head
    obtain ⟨first, tail, form, start, unmarked, -⟩ := exists_uppercase_eq letter
    have raised : caseFrom (some '_') (next :: rest) =
        first :: (tail ++ caseFrom (some next) rest) := by
      rw [caseFrom_cons, caseBetween_letter letter, form, List.cons_append]
    refine ⟨first, tail ++ caseFrom (some next) rest, ?_, by simp [startsIdentifier, start], ?_⟩
    · rw [caseFrom_cons, List.head?_cons, caseBetween_underscore letter, List.nil_append, raised]
    · have whole : _ ↔ ¬ RaisesMarked (some '_') (next :: rest) := continues_caseFrom_iff continues
      rw [raised, List.forall_mem_cons] at whole
      rw [raisesMarked_cons_iff, or_iff_right fun mark => underscore_unmarked mark.2, ← whole]
      exact and_congr_left fun _ =>
        iff_of_true unmarked (continuesIdentifier_of_isAlphabetic start)
  · have kept : caseBetween none c rest.head? = [c] := caseBetween_eq_self (by simp) fun mark => by
      simpa [mark] using dropped
    refine ⟨c, caseFrom (some c) rest, ?_, starts, ?_⟩
    · rw [caseFrom_cons, kept]
      rfl
    · rw [continues_caseFrom_iff continues, raisesMarked_cons_iff]
      simp

/-! ## Pascal case -/

/-- **When the Pascal-case form of an identifier is one**, whatever it goes on with:
when no marked letter is at the start or behind an underscore.  Suggestions go on with
the name of their role, so this is the form in which names are looked at. -/
theorem isValidIdentifier_pascalCase_append_iff {name suffix : String}
    (valid : isValidIdentifier name = true)
    (continues : ∀ c ∈ suffix.toList, continuesIdentifier c = true) :
    isValidIdentifier (pascalCase name ++ suffix) = true ↔ ¬ RaisesMarked (some '_') name.toList := by
  obtain ⟨c, rest, chars, starts, all⟩ := isValidIdentifier_iff.mp valid
  obtain ⟨first, others, cased, starts', unmarked⟩ := exists_caseFrom_eq starts all
  have whole : (pascalCase name ++ suffix).toList = capitalize (first :: (others ++ suffix.toList)) := by
    rw [String.toList_append, toList_pascalCase, chars, cased, capitalize, capitalize,
      List.append_assoc]
  rw [isValidIdentifier_capitalize_iff whole starts', List.forall_mem_append, chars, ← unmarked]
  simp only [and_iff_left continues]

/-- The Pascal-case form by itself.  It is the case in which nothing follows. -/
theorem isValidIdentifier_pascalCase_iff {name : String} (valid : isValidIdentifier name = true) :
    isValidIdentifier (pascalCase name) = true ↔ ¬ RaisesMarked (some '_') name.toList := by
  have none : ∀ c ∈ "".toList, continuesIdentifier c = true := by simp
  rw [← isValidIdentifier_pascalCase_append_iff valid none, String.append_empty]

/-! ## Names for aliases -/

/-- **The node that has the name of a variable or parameter**, when it has a plain one.
Patterns are no plain names, and a type in another role has no such node. -/
inductive IsNameOf (tree : SyntaxTree) (slot : TypeSlot) : Nat → Prop where
  | binding {name : Nat} (role : slot.role = .variableBinding)
      (first : IsFirstChild tree (tree.field? · = some .name) slot.owner name)
      (kind : tree.kind name = .identifier) : IsNameOf tree slot name
  | parameter {name : Nat} (role : slot.role = .functionParameter ∨ slot.role = .parameterProperty)
      (first : IsFirstChild tree (tree.field? · = some .pattern) slot.owner name)
      (kind : tree.kind name = .identifier) : IsNameOf tree slot name

/-- A variable or parameter with a plain name suggests it. -/
theorem IsNameOf.suggestedName? {tree : SyntaxTree} {slot : TypeSlot} {name : Nat}
    (h : IsNameOf tree slot name) :
    AliasHoist.suggestedName? tree slot = some (pascalCase (tree.text name) ++ "Type") := by
  have named {field : Field} (first : IsFirstChild tree (tree.field? · = some field) slot.owner name)
      (kind : tree.kind name = .identifier) :
      namedChild? tree slot.owner field [.identifier] = some (tree.text name) := by
    rw [namedChild?, (childInField?_eq_some_iff tree).mpr first, Option.filter_some, kind]
    rfl
  unfold AliasHoist.suggestedName?
  cases h with
  | binding role first kind => rw [role, named first kind, Option.map_some]
  | parameter role first kind =>
      rcases role with role | role <;> rw [role, named first kind, Option.map_some]

/-- **Variables and parameters lend their names to aliases.**  The Pascal-case form of an identifier is an
identifier, unless one of the marked letters is at its start or behind an underscore.  The alias for the
type of a variable or parameter of that name gets this form followed by `Type`; with a marked letter in
such a place it gets the fallback name. -/
theorem identifiers_lend_names (name : String) (valid : isValidIdentifier name = true) :
    (isValidIdentifier (pascalCase name) = true ↔ ¬ RaisesMarked (some '_') name.toList) ∧
      ∀ (tree : SyntaxTree) (slot : TypeSlot) (id : Nat), IsNameOf tree slot id →
        tree.text id = name →
          (¬ RaisesMarked (some '_') name.toList →
            deriveName tree slot = pascalCase name ++ "Type") ∧
          (RaisesMarked (some '_') name.toList → deriveName tree slot = fallbackName) := by
  refine ⟨isValidIdentifier_pascalCase_iff valid, ?_⟩
  rintro tree slot id isName rfl
  have ending : ∀ c ∈ "Type".toList, continuesIdentifier c = true :=
    List.all_eq_true.mp (by decide +kernel)
  have whole := isValidIdentifier_pascalCase_append_iff valid ending
  rw [deriveName, isName.suggestedName?]
  constructor
  · intro unmarked
    rw [Option.filter_some, if_pos (whole.mpr unmarked), Option.getD_some]
  · intro marked
    have refused := fun kept => whole.mp kept marked
    rw [Option.filter_some, if_neg refused, Option.getD_none]

namespace Specimen

/-- A variable with a type over several lines. -/
def bindingSource (name : String) : String := "let " ++ name ++ ": \x7b\n  a: string;\n\x7d;\n"

/-- What the parser says about `bindingSource`, for a name with that many bytes. -/
def bindingRaw (width : Nat) : RawTree :=
  branch "program" none 0 (24 + width) [
    branch "lexical_declaration" none 0 (23 + width) [
      token "let" (some "kind") 0 3,
      branch "variable_declarator" none 4 (22 + width) [
        branch "identifier" (some "name") 4 (4 + width) [],
        branch "type_annotation" (some "type") (4 + width) (22 + width) [
          token ":" none (4 + width) (5 + width),
          branch "object_type" none (6 + width) (22 + width) [
            token "\x7b" none (6 + width) (7 + width),
            branch "property_signature" none (10 + width) (19 + width) [
              branch "property_identifier" (some "name") (10 + width) (11 + width) [],
              branch "type_annotation" (some "type") (11 + width) (19 + width) [
                token ":" none (11 + width) (12 + width),
                branch "predefined_type" none (13 + width) (19 + width) [
                  token "string" none (13 + width) (19 + width)]]],
            token ";" none (19 + width) (20 + width),
            token "\x7d" none (21 + width) (22 + width)]]],
      token ";" none (22 + width) (23 + width)]]

/-- The slot of the variable in `bindingSource`. -/
def bindingSlot : TypeSlot := { node := 4, owner := 2, role := .variableBinding }

/-- The tree of `bindingSource`. -/
def bindingTree (name : String) (width : Nat) : SyntaxTree :=
  .ofRaw (bindingSource name) (bindingRaw width) false

/-- The variable has a plain name. -/
theorem isNameOf_bindingTree {name : String} {width : Nat}
    (child : (bindingTree name width).childInField? bindingSlot.owner .name = some 3)
    (kind : (bindingTree name width).kind 3 = .identifier) :
    IsNameOf (bindingTree name width) bindingSlot 3 :=
  .binding rfl ((childInField?_eq_some_iff _).mp child) kind

end Specimen

open Specimen

/-- A marked letter in the middle of a name is not upper-cased and does no harm. -/
theorem identifiers_lend_names_specimen :
    isValidIdentifier "a\u01f0_b" = true ∧
      IsNameOf (bindingTree "a\u01f0_b" 5) bindingSlot 3 ∧
      (bindingTree "a\u01f0_b" 5).text 3 = "a\u01f0_b" ∧
      deriveName (bindingTree "a\u01f0_b" 5) bindingSlot = "A\u01f0BType" := by
  have valid : isValidIdentifier "a\u01f0_b" = true := by decide +kernel
  have isName : IsNameOf (bindingTree "a\u01f0_b" 5) bindingSlot 3 :=
    isNameOf_bindingTree (by decide +kernel) (by decide +kernel)
  have text : (bindingTree "a\u01f0_b" 5).text 3 = "a\u01f0_b" := by decide +kernel
  obtain ⟨keeps, lends⟩ := identifiers_lend_names "a\u01f0_b" valid
  have unmarked := keeps.mp (by decide +kernel)
  have form : pascalCase "a\u01f0_b" ++ "Type" = "A\u01f0BType" := by decide +kernel
  exact ⟨valid, isName, text, ((lends _ _ 3 isName text).1 unmarked).trans form⟩

/-- **A marked letter at the start of a name loses it.**  A variable that is just called by the letter j
with caron has an identifier for its name.  The Pascal-case form of the name is none, and the alias for
the variable's type gets the fallback name. -/
theorem marked_name_lost :
    isValidIdentifier "\u01f0" = true ∧ isValidIdentifier (pascalCase "\u01f0") = false ∧
      IsNameOf (bindingTree "\u01f0" 2) bindingSlot 3 ∧
      (bindingTree "\u01f0" 2).text 3 = "\u01f0" ∧
      deriveName (bindingTree "\u01f0" 2) bindingSlot = fallbackName ∧
      deriveName (bindingTree "\u01f0" 2) bindingSlot ≠ pascalCase "\u01f0" ++ "Type" ∧
      (lint (bindingTree "\u01f0" 2) true).map (·.aliasName) = [fallbackName] := by
  have isName : IsNameOf (bindingTree "\u01f0" 2) bindingSlot 3 :=
    isNameOf_bindingTree (by decide +kernel) (by decide +kernel)
  have fallback : deriveName (bindingTree "\u01f0" 2) bindingSlot = fallbackName := by decide +kernel
  refine ⟨by decide +kernel, by decide +kernel, isName, by decide +kernel, fallback, ?_, by decide +kernel⟩
  rw [fallback]
  decide +kernel

end AliasHoist
