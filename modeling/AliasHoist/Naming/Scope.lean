import AliasHoist.Tree.Basic

/-!
# The type names of a file

An alias must not take a name that the file already uses for a type, nor one that an earlier alias
of the same pass has taken.

## Main Definitions

* `NameScope`: the names taken, and whether clashes are resolved at all;
* `NameScope.ofTree`: the names that a file declares or imports;
* `NameScope.claim`: takes a name, with a number at its end when it is taken already.

## Design Notes

A clash is resolved by the smallest number from two upward that gives a free name.  One of the
first `n` numbers does where `n` names are taken, so the search runs through a list of that length
and always succeeds.
-/

namespace AliasHoist

/-- The names that are taken in one file. -/
structure NameScope where
  taken : List String
  /-- Whether clashing names get a number. -/
  disambiguate : Bool
  deriving DecidableEq, Repr

namespace NameScope

/-- Whether a node is the name of an imported binding or stands below one. -/
def isImportedName (tree : SyntaxTree) (id : Nat) : Bool :=
  (tree.kind id == .identifier || tree.kind id == .typeIdentifier) &&
    (tree.ancestors id).any fun above => tree.kind above == .importStatement

/-- The name that a node takes in its file, if it takes one. -/
def nameTakenBy? (tree : SyntaxTree) (id : Nat) : Option String :=
  if (tree.kind id).declaresType then (tree.childInField? id .name).map tree.text
  else if isImportedName tree id then some (tree.text id)
  else none

/-- **The scope of a file**: the names of its type declarations, at any depth, and every identifier
of its imports. -/
def ofTree (tree : SyntaxTree) (disambiguate : Bool) : NameScope where
  taken := tree.preorder.filterMap (nameTakenBy? tree)
  disambiguate := disambiguate

/-- Whether a name is taken. -/
def contains (scope : NameScope) (name : String) : Bool := scope.taken.contains name

/-- The name with a number at its end. -/
def numbered (base : String) (n : Nat) : String := base ++ toString n

/-- The number that makes a taken name free: the smallest one from two upward. -/
def freeNumber (taken : List String) (base : String) : Nat :=
  ((List.range taken.length).find? fun i => !taken.contains (numbered base (i + 2))).getD
    taken.length + 2

/-- The name that a claim of `base` gives. -/
def freeName (taken : List String) (base : String) : String :=
  if taken.contains base then numbered base (freeNumber taken base) else base

/-- **Takes a name.**  Where clashes are not resolved the name is given as it is, and nothing is
recorded. -/
def claim (scope : NameScope) (base : String) : String × NameScope :=
  if scope.disambiguate then
    let name := freeName scope.taken base
    (name, { scope with taken := name :: scope.taken })
  else (base, scope)

@[simp] theorem claim_disambiguate (scope : NameScope) (base : String) :
    (scope.claim base).2.disambiguate = scope.disambiguate := by
  unfold claim
  split <;> rfl

end NameScope

end AliasHoist
