import AliasHoist.Tree.Kind

/-!
# Raw syntax trees

What a parser of the grammar returns: every token is a node, punctuation and keywords included.
Nodes that the grammar gives a name are *named*; the rest are anonymous.

## Main Definitions

* `RawTree`: a node with its children;
* `RawTree.prune`: the tree without its anonymous tokens;
* `RawTree.keptChildren`: the children of one node that survive pruning.

## Design Notes

Pruning removes an anonymous node with everything below it.  One token is worth keeping: the
keyword `readonly` directly under a parameter turns the parameter into a property of its class,
just as an accessibility modifier does, and the grammar leaves it anonymous.
-/

namespace AliasHoist

/-- What the parser says about a single node. -/
structure RawNode where
  /-- The grammar's name for the node's kind. -/
  kind : String
  /-- Whether the grammar names the node. -/
  named : Bool
  /-- The grammar's name for the node's place in its parent. -/
  field : Option String
  startByte : Nat
  stopByte : Nat
  deriving DecidableEq, Repr

/-- A node of the parser with its children in source order. -/
inductive RawTree where
  | node (head : RawNode) (children : List RawTree)
  deriving Repr

namespace RawTree

/-- What the parser says about the root. -/
def head : RawTree → RawNode
  | node head _ => head

/-- The children of the root. -/
def children : RawTree → List RawTree
  | node _ children => children

/-- Anonymous tokens that survive pruning under a parent of a given kind. -/
def isKeptToken (parentKind kind : String) : Bool :=
  kind == "readonly" && (parentKind == "required_parameter" || parentKind == "optional_parameter")

/-- Whether a child survives pruning under a parent of a given kind. -/
def survives (parentKind : String) (child : RawTree) : Bool :=
  child.head.named || isKeptToken parentKind child.head.kind

/-- The children of the root that survive pruning. -/
def keptChildren (tree : RawTree) : List RawTree :=
  tree.children.filter (survives tree.head.kind)

mutual

/-- **The tree without its anonymous tokens.**  The root is always kept. -/
def prune : RawTree → RawTree
  | node head children => node head (pruneAll head.kind children)

/-- The surviving trees of a list of siblings, each of them pruned. -/
def pruneAll (parentKind : String) : List RawTree → List RawTree
  | [] => []
  | child :: rest =>
      if survives parentKind child then prune child :: pruneAll parentKind rest
      else pruneAll parentKind rest

end

mutual

/-- The number of nodes of a tree. -/
def size : RawTree → Nat
  | node _ children => 1 + sizeAll children

/-- The number of nodes of a list of trees. -/
def sizeAll : List RawTree → Nat
  | [] => 0
  | tree :: rest => size tree + sizeAll rest

end

@[simp] theorem sizeAll_append (xs ys : List RawTree) :
    sizeAll (xs ++ ys) = sizeAll xs + sizeAll ys := by
  induction xs with
  | nil => simp [sizeAll]
  | cons x xs ih => simp [sizeAll, ih]; omega

theorem sizeAll_filter_le (p : RawTree → Bool) (xs : List RawTree) :
    sizeAll (xs.filter p) ≤ sizeAll xs := by
  induction xs with
  | nil => simp
  | cons x xs ih =>
      simp only [List.filter_cons]
      split <;> simp [sizeAll] <;> omega

/-- The surviving children together have fewer nodes than the tree. -/
theorem sizeAll_keptChildren_lt (tree : RawTree) : sizeAll tree.keptChildren < size tree := by
  cases tree with
  | node head children =>
      have := sizeAll_filter_le (survives head.kind) children
      simp only [keptChildren, size, RawTree.children, RawTree.head]
      omega

end RawTree

end AliasHoist
