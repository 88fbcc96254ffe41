import AliasHoist.Tree.Basic

/-!
# Where an alias goes

The alias of a type literal is declared right before the nearest statement around the literal that
is itself a declaration.  That statement is the *anchor*.

## Main Definitions

* `anchorAt?`: the anchor that a node on the way up gives;
* `anchor?`: the anchor of a node, if any statement encloses it.

## Design Notes

A declaration under `export` or `declare` has the outermost wrapper as its anchor, so that the alias
never lands between the keyword and the declaration.  The way up ends below the program.
-/

namespace AliasHoist

variable (tree : SyntaxTree)

/-- The topmost of the unbroken run of wrappers that starts at a wrapper. -/
def outermostWrapper (wrapper : Nat) : Nat :=
  (((tree.ancestors wrapper).takeWhile fun above => (tree.kind above).isWrapper).getLast?).getD
    wrapper

/-- Whether a node has a declaration among its children that an alias can be put in front of. -/
def wrapsTarget (wrapper : Nat) : Bool :=
  (tree.children wrapper).any fun child => (tree.kind child).isHoistTarget

/-- **The anchor that a node on the way up gives**: itself or the wrappers around it, when it is a
declaration in a place for statements, or a wrapper of one. -/
def anchorAt? (id : Nat) : Option Nat :=
  if (tree.kind id).isWrapper && wrapsTarget tree id then some (outermostWrapper tree id)
  else if (tree.kind id).isHoistTarget then
    match tree.parent? id with
    | none => none
    | some parent =>
        if (tree.kind parent).isWrapper then some (outermostWrapper tree parent)
        else if tree.kind parent == .program || tree.kind parent == .block then some id
        else none
  else none

/-- A node and the way up from it, up to the program. -/
def wayToProgram (id : Nat) : List Nat :=
  (id :: tree.ancestors id).takeWhile fun above => tree.kind above != .program

/-- **The statement that an alias for a type at this node goes in front of.** -/
def anchor? (id : Nat) : Option Nat := (wayToProgram tree id).findSome? (anchorAt? tree)

end AliasHoist
