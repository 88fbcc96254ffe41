import AliasHoist.Tree.Basic

/-!
# Names that a literal captures

A type literal may use a type parameter of the function or class it stands in, or `this`.  In front
of the anchor such a name means something else or nothing, so the literal cannot be moved there.

## Main Definitions

* `typeParameterNames`: the type parameters declared on a node;
* `scopesLeft`: the nodes whose type parameters are out of scope at the anchor;
* `capturedName?`: the first name in a literal that would be captured.
-/

namespace AliasHoist

variable (tree : SyntaxTree)

/-- The names of the type parameters declared on a node: `<T, U extends X>` declares `T` and `U`. -/
def typeParameterNames (scope : Nat) : List String :=
  let lists := (tree.children scope).filter fun child => tree.kind child == .typeParameters
  let parameters := (lists.flatMap tree.children).filter fun child =>
    tree.kind child == .typeParameter
  (parameters.filterMap fun parameter => tree.childInField? parameter .name).map tree.text

/-- The nodes around a literal that are left behind when it moves in front of the anchor: those
below the anchor, and the anchor itself. -/
def scopesLeft (literal anchor : Nat) : List Nat :=
  (tree.ancestors literal).takeWhile (· != anchor) ++ [anchor]

/-- What a node of a literal refers to that is bound by one of the given names, or by `this`. -/
def capturedAt? (bound : List String) (id : Nat) : Option String :=
  match tree.kind id with
  | .thisType => some "this"
  | .typeIdentifier => if bound.contains (tree.text id) then some (tree.text id) else none
  | _ => none

/-- **The first name in a literal that is not in scope in front of the anchor.** -/
def capturedName? (literal anchor : Nat) : Option String :=
  let bound := (scopesLeft tree literal anchor).flatMap (typeParameterNames tree)
  (tree.descendants literal).findSome? (capturedAt? tree bound)

end AliasHoist
