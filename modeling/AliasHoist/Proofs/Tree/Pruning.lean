import AliasHoist.Proofs.Tree.Navigation
import Mathlib.Data.List.Forall2

/-!
# Lowering as pruning

Lowering works through a list of pending trees and fills the lists of children in later.  What comes
out has a plain description: prune the raw tree by recursion, and list the trees that are left in
pre-order.

## Main Definitions

* `RawTree.subtrees`: a tree and all trees below it, in pre-order;
* `Node.Describes`: a node says of itself what the parser says about the root of a raw tree;
* `SyntaxTree.LaysOut`: a syntax tree lists the nodes of a raw tree in pre-order, with their links;
* `Underway`: how far lowering has come.

## Main Statements

* `underway_attach`, `underway_lowerFrom`: what one step of numbering and what a whole run keeps;
* `SyntaxTree.lowering_lays_out_pruned`: lowered trees lay out the pruned tree.

### What is load-bearing

While lowering is under way, the children of a tree are in two places: those with a number are
listed by their parent's node, and the others wait.  Numbering moves the first of those that wait
to the end of the list, so that both together stay what they are (`Underway.children`).
-/

namespace AliasHoist

/-! ## Trees in pre-order -/

namespace RawTree

mutual

/-- **A tree and all trees below it**, in pre-order.  The position in this list is the
number that lowering gives. -/
def subtrees : RawTree → List RawTree
  | node head children => node head children :: subtreesAll children

/-- The trees of a list, each with all trees below it. -/
def subtreesAll : List RawTree → List RawTree
  | [] => []
  | tree :: rest => subtrees tree ++ subtreesAll rest

end

theorem subtreesAll_eq_flatMap (trees : List RawTree) :
    subtreesAll trees = trees.flatMap subtrees := by
  induction trees with
  | nil => rfl
  | cons tree rest ih => rw [subtreesAll, ih, List.flatMap_cons]

theorem subtrees_eq (tree : RawTree) :
    tree.subtrees = tree :: tree.children.flatMap subtrees := by
  cases tree with
  | node head children => rw [subtrees, subtreesAll_eq_flatMap]; rfl

theorem size_eq (tree : RawTree) : tree.size = 1 + sizeAll tree.children := by
  cases tree with
  | node head children => rw [size]; rfl

theorem size_le_sizeAll {child : RawTree} {trees : List RawTree} (mem : child ∈ trees) :
    child.size ≤ sizeAll trees := by
  induction trees with
  | nil => simp at mem
  | cons tree rest ih =>
      rw [sizeAll]
      rcases List.mem_cons.mp mem with rfl | later
      · omega
      · have := ih later
        omega

/-! ## Pruned trees -/

@[simp] theorem head_prune (tree : RawTree) : tree.prune.head = tree.head := by
  cases tree
  rw [prune]
  rfl

theorem pruneAll_eq_map (parentKind : String) (children : List RawTree) :
    pruneAll parentKind children = (children.filter (survives parentKind)).map prune := by
  induction children with
  | nil => rfl
  | cons child rest ih =>
      rw [pruneAll, List.filter_cons]
      split
      · rw [List.map_cons, ih]
      · exact ih

/-- The children of a pruned tree are the surviving ones, each of them pruned.  What
survives depends on the parent, which is not pruned itself. -/
theorem children_prune (tree : RawTree) : tree.prune.children = tree.keptChildren.map prune := by
  cases tree with
  | node head children =>
      rw [prune, RawTree.children, pruneAll_eq_map]
      rfl

end RawTree

/-! ## Nodes that describe trees -/

/-- **A node describes a raw tree**: it says of itself what the parser says about the
tree's root.  The field is the place in the parent, so a node without a parent has none.
Positions in rows and columns are counted from the offsets, so the offsets are enough.
-/
structure Node.Describes (source : List Char) (tree : RawTree) (node : Node) : Prop where
  kind : node.kind = .ofGrammar tree.head.kind
  grammarKind : node.grammarKind = tree.head.kind
  span : node.span = .ofOffsets source tree.head.startByte tree.head.stopByte
  field : node.field = node.parent.bind fun _ => tree.head.field.bind Field.ofGrammar?

/-- A node with one more child describes the same tree.  Children are accounted for
apart, in `Underway`. -/
theorem Node.Describes.adopt {source : List Char} {tree : RawTree} {node : Node}
    (h : node.Describes source tree) (child : Nat) : (node.adopt child).Describes source tree where
  kind := h.kind
  grammarKind := h.grammarKind
  span := h.span
  field := h.field

/-- A pending tree has the field that the parser gives it, unless it is the root.  The
root has no place in a parent, so its field is dropped. -/
def Pending.FieldKept (pending : Pending) : Prop :=
  pending.field = pending.parent.bind fun _ => pending.tree.head.field.bind Field.ofGrammar?

theorem Pending.describes {pending : Pending} (h : pending.FieldKept) (source : List Char) :
    (pending.node source).Describes source pending.tree.prune where
  kind := by rw [RawTree.head_prune]; rfl
  grammarKind := by rw [RawTree.head_prune]; rfl
  span := by rw [RawTree.head_prune]; rfl
  field := by rw [RawTree.head_prune]; exact h

theorem fieldKept_of_mem_below {pending child : Pending} {id : Nat}
    (h : child ∈ pending.below id) : child.FieldKept := by
  simp only [Pending.below, List.mem_map] at h
  obtain ⟨tree, _, rfl⟩ := h
  rfl

/-! ## Lowering under way -/

/-- The trees that wait under a number, each of them pruned.  Order matters, for they
will be the next children of that node. -/
def waitingUnder (id : Nat) (work : List Pending) : List RawTree :=
  (work.filter fun pending => pending.parent = some id).map (·.tree.prune)

theorem waitingUnder_append (id : Nat) (work more : List Pending) :
    waitingUnder id (work ++ more) = waitingUnder id work ++ waitingUnder id more := by
  rw [waitingUnder, List.filter_append, List.map_append]
  rfl

theorem waitingUnder_cons (id : Nat) (pending : Pending) (rest : List Pending) :
    waitingUnder id (pending :: rest) =
      (if pending.parent = some id then [pending.tree.prune] else []) ++ waitingUnder id rest := by
  rw [waitingUnder, List.filter_cons]
  by_cases h : pending.parent = some id <;> simp [h, waitingUnder]

theorem waitingUnder_eq_nil {id : Nat} {work : List Pending}
    (h : ∀ pending ∈ work, pending.parent ≠ some id) : waitingUnder id work = [] := by
  rw [waitingUnder, List.filter_eq_nil_iff.mpr, List.map_nil]
  intro pending mem
  simpa using h pending mem

/-- Below a pending tree that gets a number its pruned children wait.  So at the moment
of its numbering a tree has all its children waiting. -/
theorem waitingUnder_below (pending : Pending) (id : Nat) :
    waitingUnder id (pending.below id) = pending.tree.prune.children := by
  rw [waitingUnder, List.filter_eq_self.mpr, RawTree.children_prune, Pending.below, List.map_map]
  · rfl
  · intro child mem
    simpa using parent_of_mem_below mem

/-- **How far lowering has come**: the nodes numbered so far describe the given trees,
in this order, and the children of each of these trees are those that its node lists and
those that still wait under its number.  It is kept by every step, and at the end, when
nothing waits, it is the description of the tree. -/
structure Underway (source : List Char) (trees : List RawTree) (nodes : Array Node)
    (work : List Pending) : Prop where
  linked : Linked nodes
  size : nodes.size = trees.length
  describes : ∀ {id : Nat} {tree : RawTree}, trees[id]? = some tree →
    ∃ node, nodes[id]? = some node ∧ node.Describes source tree
  waits : ∀ pending ∈ work, WaitsBelow nodes pending
  fields : ∀ pending ∈ work, pending.FieldKept
  children : ∀ {id : Nat} {tree : RawTree}, trees[id]? = some tree →
    (childrenIn nodes id).map (trees[·]?) ++ (waitingUnder id work).map some =
      tree.children.map some

variable {source : List Char} {trees : List RawTree} {nodes : Array Node} {work : List Pending}

theorem describes_attach {pending : Pending} {rest : List Pending}
    (h : Underway source trees nodes (pending :: rest)) {id : Nat} {tree : RawTree}
    (ht : (trees ++ [pending.tree.prune])[id]? = some tree) :
    ∃ node, (attach nodes (pending.node source))[id]? = some node ∧
      node.Describes source tree := by
  rw [List.getElem?_append, ← h.size] at ht
  split at ht
  · rename_i lt
    obtain ⟨node, hnode, describes⟩ := h.describes ht
    rw [getElem?_attach_of_lt lt, hnode]
    refine ⟨_, rfl, ?_⟩
    split
    · exact describes.adopt nodes.size
    · exact describes
  · rw [List.getElem?_singleton] at ht
    split at ht
    · obtain rfl : id = nodes.size := by omega
      obtain rfl := Option.some.inj ht
      exact ⟨_, getElem?_attach_size _ _, pending.describes (h.fields pending List.mem_cons_self) _⟩
    · simp at ht

/-- Numbers that have been given keep their trees.  One more tree at the end changes no
earlier position. -/
theorem map_getElem?_append (h : Underway source trees nodes work) (id : Nat) (tree : RawTree) :
    (childrenIn nodes id).map ((trees ++ [tree])[·]?) = (childrenIn nodes id).map (trees[·]?) := by
  refine List.map_congr_left fun child mem => ?_
  have lt := lt_size_of_parentIn (h.linked.mem_childrenIn_iff.mp mem)
  exact List.getElem?_append_left (h.size ▸ lt)

theorem children_attach {pending : Pending} {rest : List Pending}
    (h : Underway source trees nodes (pending :: rest)) {id : Nat} {tree : RawTree}
    (ht : (trees ++ [pending.tree.prune])[id]? = some tree) :
    (childrenIn (attach nodes (pending.node source)) id).map
          ((trees ++ [pending.tree.prune])[·]?) ++
        (waitingUnder id (pending.below nodes.size ++ rest)).map some =
      tree.children.map some := by
  have last : (trees ++ [pending.tree.prune])[nodes.size]? = some pending.tree.prune := by
    rw [h.size, List.getElem?_concat_length]
  rcases Nat.lt_trichotomy id nodes.size with lt | rfl | gt
  · -- the numbered tree leaves those that wait and joins those that are listed
    rw [List.getElem?_append_left (h.size ▸ lt)] at ht
    have none : waitingUnder id (pending.below nodes.size) = [] := by
      refine waitingUnder_eq_nil fun child mem => ?_
      rw [parent_of_mem_below mem]
      simpa using Nat.ne_of_gt lt
    rw [← h.children ht, childrenIn_attach_of_lt lt, List.map_append, map_getElem?_append h,
      waitingUnder_append, none, waitingUnder_cons, List.append_assoc, List.map_append]
    congr 1
    show List.map _ (if pending.parent = some id then _ else _) ++ _ = _
    split
    · rw [List.map_singleton, last]
      rfl
    · rfl
  · -- the new node lists nobody yet, and its children wait
    have none : waitingUnder nodes.size rest = [] := by
      refine waitingUnder_eq_nil fun other mem hp => ?_
      exact Nat.lt_irrefl _ (h.waits other (List.mem_cons_of_mem _ mem) hp)
    obtain rfl := Option.some.inj (last.symm.trans ht)
    rw [childrenIn_attach_size, waitingUnder_append, waitingUnder_below, none, List.append_nil]
    rfl
  · rw [List.getElem?_eq_none (by rw [List.length_append, List.length_singleton, ← h.size]; omega)]
      at ht
    simp at ht

/-- **What one step of numbering does**: the first of the pending trees is added to
those numbered, and its children wait before the rest.  Each field is one of the lemmas
above. -/
theorem underway_attach {pending : Pending} {rest : List Pending}
    (h : Underway source trees nodes (pending :: rest)) :
    Underway source (trees ++ [pending.tree.prune]) (attach nodes (pending.node source))
      (pending.below nodes.size ++ rest) where
  linked := linked_attach h.linked rfl fun hp => h.waits pending List.mem_cons_self hp
  size := by rw [size_attach, h.size, List.length_append, List.length_singleton]
  describes := describes_attach h
  waits := by
    intro other mem
    rcases List.mem_append.mp mem with child | later
    · exact waitsBelow_of_mem_below _ child
    · exact waitsBelow_attach (h.waits other (List.mem_cons_of_mem _ later)) _
  fields := by
    intro other mem
    rcases List.mem_append.mp mem with child | later
    · exact fieldKept_of_mem_below child
    · exact h.fields other (List.mem_cons_of_mem _ later)
  children := children_attach h

/-- The trees that a list of pending trees stands for, in the order in which they are
numbered.  It is the part of the pre-order that is still to come. -/
def pendingTrees (work : List Pending) : List RawTree := work.flatMap (·.tree.prune.subtrees)

/-- Numbering a tree leaves its children, and what comes after it, to be numbered.  This
is pre-order itself: a tree, then those below it, then the rest. -/
theorem pendingTrees_cons (pending : Pending) (rest : List Pending) (id : Nat) :
    pendingTrees (pending :: rest) =
      pending.tree.prune :: pendingTrees (pending.below id ++ rest) := by
  rw [pendingTrees, List.flatMap_cons, RawTree.subtrees_eq, RawTree.children_prune, pendingTrees,
    List.flatMap_append, List.cons_append, Pending.below, List.flatMap_map, List.flatMap_map]

/-- **What a whole run does**: all that is pending is numbered, each tree before those
below it.  An induction along the recursion of lowering, with `underway_attach` as its
step. -/
theorem underway_lowerFrom (h : Underway source trees nodes work) :
    Underway source (trees ++ pendingTrees work) (lowerFrom source nodes work) [] := by
  induction nodes, work using lowerFrom.induct source generalizing trees with
  | case1 nodes =>
      rw [lowerFrom, pendingTrees, List.flatMap_nil, List.append_nil]
      exact h
  | case2 nodes pending rest ih =>
      rw [lowerFrom, pendingTrees_cons pending rest nodes.size, List.append_cons]
      exact ih (underway_attach h)

/-- **Lowering numbers the pruned tree.**  The pending list starts with the root alone.
-/
theorem underway_ofRaw (source : String) (raw : RawTree) (hasErrors : Bool) :
    Underway source.toList raw.prune.subtrees (SyntaxTree.ofRaw source raw hasErrors).nodes [] := by
  let root : Pending := { tree := raw, parent := none, field := none }
  have start : Underway source.toList [] #[] [root] := {
    linked := linked_empty
    size := rfl
    describes := by simp
    waits := by simp [WaitsBelow, root]
    fields := by simp [Pending.FieldKept, root]
    children := by simp }
  have done := underway_lowerFrom start
  rw [pendingTrees, List.flatMap_singleton, List.nil_append] at done
  exact done

/-! ## What lowering lays out -/

namespace SyntaxTree

/-- **A syntax tree lays out a raw tree**: it lists the nodes of the raw tree in
pre-order, with links between them that are those of the raw tree.  It determines the
syntax tree, up to what the nodes do not say. -/
structure LaysOut (tree : SyntaxTree) (raw : RawTree) : Prop where
  /-- The nodes are those of the raw tree, in pre-order. -/
  nodes : List.Forall₂ (Node.Describes tree.source.toList) raw.subtrees tree.nodes.toList
  /-- The first node is the root and has no parent. -/
  root : tree.parent? root = none
  /-- Every other node has a parent, which comes before it. -/
  parent : ∀ {id : Nat}, id < tree.size → id ≠ SyntaxTree.root →
    ∃ parent < id, tree.parent? id = some parent
  /-- The children of a node are the nodes of its children in the raw tree, in their order. -/
  children : ∀ {id : Nat} {below : RawTree}, raw.subtrees[id]? = some below →
    (tree.children id).map (raw.subtrees[·]?) = below.children.map some
  /-- The children of a node are the nodes that name it as their parent. -/
  mem_children_iff : ∀ {id child : Nat},
    child ∈ tree.children id ↔ tree.parent? child = some id
  sorted : ∀ id : Nat, (tree.children id).Pairwise (· < ·)
  /-- A node and those below it have the numbers from its own on, as many as its raw tree has
  nodes. -/
  contiguous : ∀ {id other : Nat} {below : RawTree}, raw.subtrees[id]? = some below →
    (id ∈ other :: tree.ancestors other ↔ id ≤ other ∧ other < id + below.size)

variable {tree : SyntaxTree}

/-- The nodes below a node are a run of numbers.  How many they are is all that is left
to know. -/
theorem descendants_eq_range' (id : Nat) :
    tree.descendants id = List.range' (id + 1) (tree.descendants id).length := by
  obtain ⟨rest, split⟩ : tree.descendants id <+: List.range' (id + 1) (tree.size - (id + 1)) :=
    List.takeWhile_prefix _
  obtain ⟨length, _, run, _⟩ := List.range'_eq_append_iff.mp split.symm
  rw [run, List.length_range']

/-- The nodes of some children, each with those below it, are as many as their raw trees
have.  It adds up the sizes of siblings. -/
theorem length_flatMap_descendants {raw : RawTree} {ids : List Nat} {children : List RawTree}
    (same : ids.map (raw.subtrees[·]?) = children.map some)
    (count : ∀ {id : Nat} {below : RawTree}, below ∈ children → raw.subtrees[id]? = some below →
      (tree.descendants id).length + 1 = below.size) :
    (ids.flatMap fun id => id :: tree.descendants id).length = RawTree.sizeAll children := by
  induction children generalizing ids with
  | nil =>
      rw [List.map_nil, List.map_eq_nil_iff] at same
      rw [same]
      rfl
  | cons below rest ih =>
      cases ids with
      | nil => simp at same
      | cons id others =>
          rw [List.map_cons, List.map_cons, List.cons.injEq] at same
          have here := count List.mem_cons_self same.1
          have there := ih same.2 fun mem => count (List.mem_cons_of_mem _ mem)
          rw [List.flatMap_cons, List.length_append, there, List.length_cons, here,
            RawTree.sizeAll]

/-- **A node has as many nodes below it as its raw tree**, where the children of nodes
are those of raw trees.  An induction on the number, from the last node to the first. -/
theorem length_descendants (linked : Linked tree.nodes) (ordered : InOrder tree.nodes)
    {raw : RawTree}
    (children : ∀ {id : Nat} {below : RawTree}, raw.subtrees[id]? = some below →
      (tree.children id).map (raw.subtrees[·]?) = below.children.map some)
    {id : Nat} {below : RawTree} (hbelow : raw.subtrees[id]? = some below) :
    (tree.descendants id).length + 1 = below.size := by
  induction hsize : below.size using Nat.strongRecOn generalizing id below with
  | _ size ih =>
      rw [descendants_eq_flatMap linked ordered,
        length_flatMap_descendants (children hbelow) fun {child} small mem hchild => ?_]
      · rw [← hsize, RawTree.size_eq, Nat.add_comm]
      · have le := RawTree.size_le_sizeAll mem
        rw [RawTree.size_eq] at hsize
        exact ih _ (by omega) hchild rfl

/-- **Lowering prunes.**  The syntax tree of a raw tree lays out the raw tree without its anonymous
tokens. -/
theorem lowering_lays_out_pruned (source : String) (raw : RawTree) (hasErrors : Bool) :
    (ofRaw source raw hasErrors).LaysOut raw.prune := by
  have linked := linked_ofRaw source raw hasErrors
  have ordered := inOrder_ofRaw source raw hasErrors
  have done := underway_ofRaw source raw hasErrors
  have children {id : Nat} {below : RawTree} (hbelow : raw.prune.subtrees[id]? = some below) :
      ((ofRaw source raw hasErrors).children id).map (raw.prune.subtrees[·]?) =
        below.children.map some := by
    have := done.children hbelow
    rwa [waitingUnder, List.filter_nil, List.map_nil, List.map_nil, List.append_nil] at this
  constructor
  case nodes =>
    refine List.forall₂_iff_get.mpr ⟨done.size.symm, fun i hi hi' => ?_⟩
    obtain ⟨node, hnode, describes⟩ := done.describes (List.getElem?_eq_getElem hi)
    rw [← Array.getElem?_toList, List.getElem?_eq_getElem hi'] at hnode
    rw [← Option.some.inj hnode] at describes
    exact describes
  case root => exact parent?_root
  case parent =>
    intro id lt ne
    obtain ⟨parent, hp⟩ := exists_parent? ordered lt ne
    exact ⟨parent, parent?_lt hp, hp⟩
  case children => exact children
  case mem_children_iff => exact mem_children_iff linked
  case sorted => exact linked.sorted
  case contiguous =>
    intro id other below hbelow
    have count := length_descendants linked ordered children hbelow
    rw [List.mem_cons, ← mem_descendants_iff ordered, descendants_eq_range', List.mem_range'_1]
    omega

end SyntaxTree

end AliasHoist
