import AliasHoist.Tree.Kind
import AliasHoist.Tree.Span

/-!
# Syntax trees

A syntax tree keeps its nodes in one array, in source order, and names them by index.  Node `0` is
the root, a parent comes before its children, and the nodes below a node follow it directly.

## Main Definitions

* `SyntaxTree`: the source, its nodes, and whether the parser met an error;
* `SyntaxTree.ancestors`: the way up from a node, nearest first;
* `SyntaxTree.descendants`: the nodes below a node, in source order;
* `childInField?`, `firstChildOfKind?`, `text`, `leadingIndent`: what the rule asks a node.

## Design Notes

That a parent comes before its children is a field of the structure, not a remark: it is what makes
the walk upward end, and it holds of every tree, however it was built.  Questions about an index
that names no node have the answers of a node without parent, children and text.
-/

namespace AliasHoist

/-- A node of a syntax tree. -/
structure Node where
  kind : NodeKind
  /-- The grammar's own name for the kind. -/
  grammarKind : String
  field : Option Field
  span : Span
  parent : Option Nat
  children : Array Nat
  deriving DecidableEq, Repr

/-- The parent of a node in an array of nodes. -/
def parentIn (nodes : Array Node) (id : Nat) : Option Nat := nodes[id]?.bind (·.parent)

/-- **A parsed source.** -/
structure SyntaxTree where
  source : String
  nodes : Array Node
  hasErrors : Bool
  /-- A parent comes before its children. -/
  parent_lt : ∀ ⦃id parent : Nat⦄, parentIn nodes id = some parent → parent < id

namespace SyntaxTree

variable (tree : SyntaxTree)

/-- The number of nodes. -/
def size : Nat := tree.nodes.size

/-- The root comes first. -/
def root : Nat := 0

/-- All nodes in source order. -/
def preorder : List Nat := List.range tree.size

/-- The kind of a node. -/
def kind (id : Nat) : NodeKind := (tree.nodes[id]?.map (·.kind)).getD .other

/-- The place of a node in its parent. -/
def field? (id : Nat) : Option Field := tree.nodes[id]?.bind (·.field)

/-- The part of the source that a node covers. -/
def span (id : Nat) : Span := (tree.nodes[id]?.map (·.span)).getD (.ofOffsets [] 0 0)

/-- The parent of a node. -/
def parent? (id : Nat) : Option Nat := parentIn tree.nodes id

/-- The children of a node in source order. -/
def children (id : Nat) : List Nat := (tree.nodes[id]?.map (·.children.toList)).getD []

variable {tree} in
/-- Going up means going to a smaller index. -/
theorem parent?_lt {id parent : Nat} (h : tree.parent? id = some parent) : parent < id :=
  tree.parent_lt h

/-- The first child in a grammar field. -/
def childInField? (id : Nat) (field : Field) : Option Nat :=
  (tree.children id).find? fun child => tree.field? child == some field

/-- The first child of a kind. -/
def firstChildOfKind? (id : Nat) (kind : NodeKind) : Option Nat :=
  (tree.children id).find? fun child => tree.kind child == kind

/-- The text between two byte offsets of the source. -/
def slice? (start stop : Nat) : Option String := Text.slice? tree.source start stop

/-- The text of a node, empty when its span is none of the source's. -/
def text (id : Nat) : String :=
  let span := tree.span id
  (tree.slice? span.startByte span.stopByte).getD ""

/-- **The way up from a node**: its parent, its parent's parent, and so on to the root. -/
def ancestors (id : Nat) : List Nat :=
  match _h : tree.parent? id with
  | none => []
  | some parent => parent :: ancestors parent
termination_by id
decreasing_by exact tree.parent_lt _h

theorem ancestors_of_none {id : Nat} (h : tree.parent? id = none) : tree.ancestors id = [] := by
  rw [ancestors]
  split
  · rfl
  · simp_all

theorem ancestors_of_some {id parent : Nat} (h : tree.parent? id = some parent) :
    tree.ancestors id = parent :: tree.ancestors parent := by
  rw [ancestors]
  split
  · simp_all
  · simp_all

/-- **The nodes below a node** in source order: the run of nodes after it that have it among their
ancestors. -/
def descendants (id : Nat) : List Nat :=
  (List.range' (id + 1) (tree.size - (id + 1))).takeWhile fun node =>
    (tree.ancestors node).contains id

/-- The blanks between the start of a node's line and the node, none when other text precedes the
node on that line. -/
def leadingIndent (id : Nat) : String :=
  let before := Text.takeBytes (tree.span id).startByte tree.source.toList
  let line := (before.reverse.takeWhile (· != '\n')).reverse
  if line.all fun c => c == ' ' || c == '\t' then String.ofList line else ""

end SyntaxTree

end AliasHoist
