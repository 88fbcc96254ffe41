import AliasHoist.Proofs.Rule.Scoping

/-!
# Which name is captured

The search for a name that a literal would lose goes over the nodes of the literal in their order
and stops at the first that uses one.  The scopes it asks are found on the way up to the anchor.
This module says which node it stops at and which name it gives, without the walk in either
direction.

## Main Definitions

* `usedName`: the name by which a node of a literal refers to something.

## Main Statements

* `isLeft_iff`: what is left behind are the scopes around the literal but not around the anchor;
* `findSome?_eq_some_iff_of_sorted`: a search over ascending numbers stops at the least that counts;
* `capturedName?_eq_some_iff`: the search gives the name that the first captured node uses;
* `capture_is_exact`: when a name is captured, which one, and when none is.

### What is load-bearing

The way up stops at the anchor and takes it along, and there is one way up only: a scope around the
literal is around the anchor too, or it is met on the way.  The way down relies on the numbering of
nodes: those of the literal follow it in a run, so the first that is met is the least.
-/

namespace AliasHoist

/-! ## The way up -/

/-- Of two nodes above a third, one is above the other or they are the same.  There is
one way up from a node, and both are on it. -/
theorem SyntaxTree.mem_ancestors_or_mem {tree : SyntaxTree} {id above other : Nat}
    (h : above ∈ tree.ancestors id) (h' : other ∈ tree.ancestors id) :
    other ∈ tree.ancestors above ∨ above ∈ other :: tree.ancestors other := by
  induction id using Nat.strongRecOn with
  | _ id ih =>
      obtain ⟨parent, hp, mem⟩ := tree.mem_ancestors_iff.mp h
      obtain ⟨parent', hp', mem'⟩ := tree.mem_ancestors_iff.mp h'
      obtain rfl : parent = parent' := Option.some.inj (hp.symm.trans hp')
      rcases List.mem_cons.mp mem with rfl | further
      · rcases List.mem_cons.mp mem' with rfl | further'
        · exact Or.inr List.mem_cons_self
        · exact Or.inl further'
      · rcases List.mem_cons.mp mem' with rfl | further'
        · exact Or.inr (List.mem_cons_of_mem _ further)
        · exact ih parent (tree.parent_lt hp) further further'

variable {tree : SyntaxTree} {literal anchor : Nat}

/-- **What is left behind are the scopes around the literal but not around the anchor.**
Here no scope is described by what is between, so the condition on names can be read off
the text. -/
theorem isLeft_iff (above : anchor ∈ tree.ancestors literal) {scope : Nat} :
    IsLeft tree literal anchor scope ↔
      scope ∈ tree.ancestors literal ∧ scope ∉ tree.ancestors anchor := by
  unfold IsLeft
  apply and_congr_right
  intro around
  constructor
  · intro below higher
    -- numbers go down on the way up, so nothing is above and below the anchor at once
    have lt := tree.lt_of_mem_ancestors higher
    rcases List.mem_cons.mp below with rfl | back
    · omega
    · have := tree.lt_of_mem_ancestors back
      omega
  · intro outside
    exact (SyntaxTree.mem_ancestors_or_mem above around).resolve_left outside

/-! ## The way down -/

/-- **A search over ascending numbers stops at the least that counts.**  It says in
terms of numbers what the search says in terms of the order of a list. -/
theorem findSome?_eq_some_iff_of_sorted {α : Type} {xs : List Nat} (sorted : xs.Pairwise (· < ·))
    {f : Nat → Option α} {a : α} :
    xs.findSome? f = some a ↔
      ∃ id ∈ xs, f id = some a ∧ ∀ earlier ∈ xs, earlier < id → f earlier = none := by
  rw [List.findSome?_eq_some_iff]
  constructor
  · rintro ⟨before, id, after, rfl, found, nothing⟩
    refine ⟨id, by simp, found, ?_⟩
    intro earlier mem lt
    -- what comes behind in the list is greater, so what is less has been passed over
    rcases List.mem_append.mp mem with first | later
    · exact nothing earlier first
    · have ascending := List.pairwise_cons.mp (List.pairwise_append.mp sorted).2.1
      rcases List.mem_cons.mp later with rfl | behind
      · omega
      · have := ascending.1 earlier behind
        omega
  · rintro ⟨id, mem, found, nothing⟩
    obtain ⟨before, after, rfl⟩ := List.append_of_mem mem
    refine ⟨before, id, after, rfl, found, ?_⟩
    intro earlier first
    refine nothing earlier (List.mem_append_left _ first) ?_
    exact (List.pairwise_append.mp sorted).2.2 earlier first id List.mem_cons_self

/-! ## The name that is found -/

variable (tree) in
/-- The name by which a node of a literal refers to something.  It is also what the
message of a withheld fix mentions. -/
def usedName (id : Nat) : String := if tree.kind id = .thisType then "this" else tree.text id

/-- The test gives a name just when it captures the node, and then the name that the
node uses. -/
theorem capturedAt?_eq_some_iff {bound : List String} {id : Nat} {name : String} :
    capturedAt? tree bound id = some name ↔
      capturedAt? tree bound id ≠ none ∧ usedName tree id = name := by
  unfold capturedAt? usedName
  cases tree.kind id <;> simp

/-- **The search gives the name that the first captured node uses.**  Nodes of the
literal are numbered in a run, so the first that is met is the least. -/
theorem capturedName?_eq_some_iff (ordered : InOrder tree.nodes)
    (above : anchor ∈ tree.ancestors literal) {name : String} :
    capturedName? tree literal anchor = some name ↔
      ∃ id, IsCaptured tree literal anchor id ∧
        (∀ earlier < id, ¬ IsCaptured tree literal anchor earlier) ∧ usedName tree id = name := by
  unfold capturedName?
  rw [findSome?_eq_some_iff_of_sorted (tree.pairwise_descendants literal)]
  apply exists_congr
  intro id
  rw [SyntaxTree.mem_descendants_iff ordered, capturedAt?_eq_some_iff]
  constructor
  · rintro ⟨inside, ⟨found, rfl⟩, nothing⟩
    refine ⟨(capturedAt?_scopesLeft_ne_none_iff above inside).mp found, ?_, rfl⟩
    intro earlier lt captured
    have mem := (SyntaxTree.mem_descendants_iff ordered).mpr captured.inside
    exact (capturedAt?_scopesLeft_ne_none_iff above captured.inside).mpr captured
      (nothing earlier mem lt)
  · rintro ⟨captured, first, rfl⟩
    refine ⟨captured.inside,
      ⟨(capturedAt?_scopesLeft_ne_none_iff above captured.inside).mpr captured, rfl⟩, ?_⟩
    intro earlier mem lt
    by_contra found
    have inside := (SyntaxTree.mem_descendants_iff ordered).mp mem
    exact first earlier lt ((capturedAt?_scopesLeft_ne_none_iff above inside).mp found)

/-- **The capture check is exact.**  For a literal of a lowered tree and an anchor above it, a name
is captured exactly when a node of the literal is `this`, or has the name of a type parameter that
is declared on the anchor or between the two.  It is the name that the first such node uses: nodes
are numbered in the order of the text, each before those below it.  None is captured exactly when
the literal has no `this`, and the names it uses are declared as type parameters, if at all, around
the anchor only. -/
theorem capture_is_exact (source : String) (raw : RawTree) (hasErrors : Bool) (literal anchor : Nat)
    (above : anchor ∈ (SyntaxTree.ofRaw source raw hasErrors).ancestors literal) :
    ((capturedName? (.ofRaw source raw hasErrors) literal anchor).isSome = true ↔
      ∃ id, IsCaptured (.ofRaw source raw hasErrors) literal anchor id) ∧
    (∀ name, capturedName? (.ofRaw source raw hasErrors) literal anchor = some name ↔
      ∃ id, IsCaptured (.ofRaw source raw hasErrors) literal anchor id ∧
        (∀ earlier < id, ¬ IsCaptured (.ofRaw source raw hasErrors) literal anchor earlier) ∧
        usedName (.ofRaw source raw hasErrors) id = name) ∧
    (capturedName? (.ofRaw source raw hasErrors) literal anchor = none ↔
      ∀ id, literal ∈ (SyntaxTree.ofRaw source raw hasErrors).ancestors id →
        (SyntaxTree.ofRaw source raw hasErrors).kind id ≠ .thisType ∧
        ((SyntaxTree.ofRaw source raw hasErrors).kind id = .typeIdentifier →
          ∀ scope ∈ (SyntaxTree.ofRaw source raw hasErrors).ancestors literal,
            DeclaresTypeParameter (.ofRaw source raw hasErrors) scope
              ((SyntaxTree.ofRaw source raw hasErrors).text id) →
            scope ∈ (SyntaxTree.ofRaw source raw hasErrors).ancestors anchor)) := by
  have ordered := inOrder_ofRaw source raw hasErrors
  generalize SyntaxTree.ofRaw source raw hasErrors = tree at above ordered ⊢
  have nothing := capturedName?_eq_none_iff ordered above
  rw [LosesTypeParameter, not_exists] at nothing
  refine ⟨?_, fun name => capturedName?_eq_some_iff ordered above, ?_⟩
  · rw [Option.isSome_iff_ne_none, ne_eq, nothing, not_forall_not]
  · rw [nothing]
    constructor
    · intro kept id inside
      -- a scope that is not around the anchor is left behind, so it would capture the name
      refine ⟨fun kind => kept id (.this inside kind), ?_⟩
      intro kind scope around declares
      by_contra outside
      exact kept id (.typeParameter inside kind ((isLeft_iff above).mpr ⟨around, outside⟩) declares)
    · intro clear id captured
      cases captured with
      | this inside kind => exact (clear id inside).1 kind
      | @typeParameter scope inside kind left declares =>
          obtain ⟨around, outside⟩ := (isLeft_iff above).mp left
          exact outside ((clear id inside).2 kind scope around declares)

namespace Specimen

/-- A literal that uses a type parameter of the function around its anchor, then one of the anchor,
then `this`. -/
def nestedSource : String :=
  "function f<V>() \x7b\n  function g<U>(x: \x7b\n" ++
    "    a: V;\n    b: U;\n    c: this;\n  \x7d) \x7b\x7d\n\x7d\n"

/-- What the parser says about `nestedSource`. -/
def nestedRaw : RawTree :=
  branch "program" none 0 82 [
    branch "function_declaration" none 0 81 [
      token "function" none 0 8,
      branch "identifier" (some "name") 9 10 [],
      branch "type_parameters" (some "type_parameters") 10 13 [
        token "<" none 10 11,
        branch "type_parameter" none 11 12 [branch "type_identifier" (some "name") 11 12 []],
        token ">" none 12 13],
      branch "formal_parameters" (some "parameters") 13 15 [
        token "(" none 13 14,
        token ")" none 14 15],
      branch "statement_block" (some "body") 16 81 [
        token "\x7b" none 16 17,
        branch "function_declaration" none 20 79 [
          token "function" none 20 28,
          branch "identifier" (some "name") 29 30 [],
          branch "type_parameters" (some "type_parameters") 30 33 [
            token "<" none 30 31,
            branch "type_parameter" none 31 32 [branch "type_identifier" (some "name") 31 32 []],
            token ">" none 32 33],
          branch "formal_parameters" (some "parameters") 33 76 [
            token "(" none 33 34,
            branch "required_parameter" none 34 75 [
              branch "identifier" (some "pattern") 34 35 [],
              branch "type_annotation" (some "type") 35 75 [
                token ":" none 35 36,
                branch "object_type" none 37 75 [
                  token "\x7b" none 37 38,
                  branch "property_signature" none 43 47 [
                    branch "property_identifier" (some "name") 43 44 [],
                    branch "type_annotation" (some "type") 44 47 [
                      token ":" none 44 45,
                      branch "type_identifier" none 46 47 []]],
                  token ";" none 47 48,
                  branch "property_signature" none 53 57 [
                    branch "property_identifier" (some "name") 53 54 [],
                    branch "type_annotation" (some "type") 54 57 [
                      token ":" none 54 55,
                      branch "type_identifier" none 56 57 []]],
                  token ";" none 57 58,
                  branch "property_signature" none 63 70 [
                    branch "property_identifier" (some "name") 63 64 [],
                    branch "type_annotation" (some "type") 64 70 [
                      token ":" none 64 65,
                      branch "this_type" none 66 70 []]],
                  token ";" none 70 71,
                  token "\x7d" none 74 75]]],
            token ")" none 75 76],
          branch "statement_block" (some "body") 77 79 [
            token "\x7b" none 77 78,
            token "\x7d" none 78 79]],
        token "\x7d" none 80 81]]]

end Specimen

/-- In front of the inner function, its own type parameter is the first name that is lost; in front
of the outer one, it is the outer type parameter. -/
theorem capture_is_exact_specimen :
    8 ∈ (SyntaxTree.ofRaw Specimen.nestedSource Specimen.nestedRaw false).ancestors 17 ∧
      capturedName? (.ofRaw Specimen.nestedSource Specimen.nestedRaw false) 17 8 = some "U" ∧
      (∃ id, IsCaptured (.ofRaw Specimen.nestedSource Specimen.nestedRaw false) 17 8 id ∧
        (∀ earlier < id,
          ¬ IsCaptured (.ofRaw Specimen.nestedSource Specimen.nestedRaw false) 17 8 earlier) ∧
        usedName (.ofRaw Specimen.nestedSource Specimen.nestedRaw false) id = "U") ∧
      capturedName? (.ofRaw Specimen.nestedSource Specimen.nestedRaw false) 17 1 = some "V" ∧
      ∃ id, IsCaptured (.ofRaw Specimen.nestedSource Specimen.nestedRaw false) 17 1 id := by
  have inner :
      8 ∈ (SyntaxTree.ofRaw Specimen.nestedSource Specimen.nestedRaw false).ancestors 17 := by
    decide +kernel
  have outer :
      1 ∈ (SyntaxTree.ofRaw Specimen.nestedSource Specimen.nestedRaw false).ancestors 17 := by
    decide +kernel
  have ofInner : capturedName? (.ofRaw Specimen.nestedSource Specimen.nestedRaw false) 17 8 =
      some "U" := by decide +kernel
  have ofOuter : capturedName? (.ofRaw Specimen.nestedSource Specimen.nestedRaw false) 17 1 =
      some "V" := by decide +kernel
  have some := (capture_is_exact Specimen.nestedSource Specimen.nestedRaw false 17 1 outer).1
  rw [ofOuter] at some
  have first := (capture_is_exact Specimen.nestedSource Specimen.nestedRaw false 17 8 inner).2.1 "U"
  exact ⟨inner, ofInner, first.mp ofInner, ofOuter, some.mp rfl⟩

end AliasHoist
