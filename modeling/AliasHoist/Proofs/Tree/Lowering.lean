import AliasHoist.Tree.Lower

/-!
# What lowering leaves behind

A lowered tree is an array whose nodes point at each other twice: a node names its parent, and the
parent lists its children.  Lowering enters the two links at different places, so that they agree is
a fact about the whole run.

## Main Definitions

* `Linked`: the two kinds of links agree, and every list of children is in source order.

## Main Statements

* `lowerFrom_induction`: what every numbering step keeps holds of the finished array;
* `linked_ofRaw`: lowered trees are linked.

### What is load-bearing

Numbering a node touches two entries of the array: the new one, and its parent's list of children.
`getElem?_attach` says so once, and every invariant below is read off it.
-/

namespace AliasHoist

/-! ## One step of numbering -/

/-- The children of a node in an array of nodes.  Numbers outside of the array have
none. -/
def childrenIn (nodes : Array Node) (id : Nat) : List Nat :=
  (nodes[id]?.map (·.children.toList)).getD []

/-- A node with one more child.  Everything that a node says of itself stays. -/
def Node.adopt (node : Node) (child : Nat) : Node :=
  { node with children := node.children.push child }

/-- **What numbering one node does to the array**: the node is put at the end, and its
number is entered at its parent.  It is the one lemma about the step that looks at
arrays. -/
theorem getElem?_attach (nodes : Array Node) (node : Node) (id : Nat) :
    (attach nodes node)[id]? =
      if id = nodes.size then some node
      else nodes[id]?.map fun kept =>
        if node.parent = some id then kept.adopt nodes.size else kept := by
  unfold attach
  cases hp : node.parent with
  | none => simp [Array.getElem?_push]
  | some parent =>
      simp only [Array.getElem?_push, Array.size_modify, Array.getElem?_modify, Option.some.injEq]
      split
      · rfl
      · split
        · rfl
        · simp

/-- Nodes with a number keep it, and may get a child. -/
theorem getElem?_attach_of_lt {nodes : Array Node} {id : Nat} (h : id < nodes.size) (node : Node) :
    (attach nodes node)[id]? = nodes[id]?.map fun kept =>
      if node.parent = some id then kept.adopt nodes.size else kept := by
  rw [getElem?_attach, if_neg (by omega)]

/-- The new node is the last. -/
theorem getElem?_attach_size (nodes : Array Node) (node : Node) :
    (attach nodes node)[nodes.size]? = some node := by
  rw [getElem?_attach, if_pos rfl]

/-- A node lists the new one behind its other children, if it is the parent. -/
theorem childrenIn_attach_of_lt {nodes : Array Node} {id : Nat} (h : id < nodes.size)
    (node : Node) :
    childrenIn (attach nodes node) id =
      childrenIn nodes id ++ if node.parent = some id then [nodes.size] else [] := by
  rw [childrenIn, getElem?_attach_of_lt h, childrenIn, Array.getElem?_eq_getElem h]
  simp only [Option.map_some, Option.getD_some]
  split
  · simp [Node.adopt]
  · simp

theorem childrenIn_attach_size (nodes : Array Node) (node : Node) :
    childrenIn (attach nodes node) nodes.size = node.children.toList := by
  rw [childrenIn, getElem?_attach_size]
  rfl

/-- A number that was not given has no children. -/
theorem childrenIn_of_size_le {nodes : Array Node} {id : Nat} (h : nodes.size ≤ id) :
    childrenIn nodes id = [] := by
  simp [childrenIn, h]

theorem lt_size_of_parentIn {nodes : Array Node} {id parent : Nat}
    (h : parentIn nodes id = some parent) : id < nodes.size := by
  refine Nat.lt_of_not_le fun ge => ?_
  rw [parentIn_of_size_le ge] at h
  simp at h

/-! ## Whole runs -/

/-- **What every numbering step keeps holds of the finished array.**  `Waits` is what a
pending tree may rely on: its children get it when the tree is numbered, and no other
step takes it away.  It is stated for any two properties, so that links, spans and order
are each one use of it. -/
theorem lowerFrom_induction (source : List Char) (Inv : Array Node → Prop)
    (Waits : Array Node → Pending → Prop)
    (step : ∀ (nodes : Array Node) (pending : Pending), Inv nodes → Waits nodes pending →
      Inv (attach nodes (pending.node source)))
    (below : ∀ (nodes : Array Node) (pending : Pending), Waits nodes pending →
      ∀ child ∈ pending.below nodes.size, Waits (attach nodes (pending.node source)) child)
    (keep : ∀ (nodes : Array Node) (pending other : Pending), Waits nodes other →
      Waits (attach nodes (pending.node source)) other)
    (nodes : Array Node) (work : List Pending) (inv : Inv nodes)
    (waits : ∀ pending ∈ work, Waits nodes pending) :
    Inv (lowerFrom source nodes work) := by
  induction nodes, work using lowerFrom.induct source with
  | case1 nodes =>
      rw [lowerFrom]
      exact inv
  | case2 nodes pending rest ih =>
      rw [lowerFrom]
      have here : Waits nodes pending := waits pending List.mem_cons_self
      refine ih (step nodes pending inv here) ?_
      intro other mem
      rcases List.mem_append.mp mem with child | later
      · exact below nodes pending here other child
      · exact keep nodes pending other (waits other (List.mem_cons_of_mem _ later))

/-- A pending tree waits under a number that has been given.  A root waits under none.
-/
def WaitsBelow (nodes : Array Node) (pending : Pending) : Prop :=
  ∀ ⦃parent : Nat⦄, pending.parent = some parent → parent < nodes.size

/-- It goes on waiting there when other trees are numbered. -/
theorem waitsBelow_attach {nodes : Array Node} {pending : Pending} (h : WaitsBelow nodes pending)
    (node : Node) : WaitsBelow (attach nodes node) pending := by
  intro parent hp
  have := h hp
  rw [size_attach]
  omega

/-- The children of a tree wait under its number. -/
theorem parent_of_mem_below {pending child : Pending} {id : Nat} (h : child ∈ pending.below id) :
    child.parent = some id := by
  simp only [Pending.below, List.mem_map] at h
  obtain ⟨tree, _, rfl⟩ := h
  rfl

theorem waitsBelow_of_mem_below {nodes : Array Node} {pending child : Pending} (node : Node)
    (h : child ∈ pending.below nodes.size) : WaitsBelow (attach nodes node) child := by
  intro parent hp
  rw [parent_of_mem_below h, Option.some.injEq] at hp
  rw [size_attach]
  omega

/-! ## Links -/

/-- **The two kinds of links agree**: the children that a node lists are those that name
it as their parent, in source order.  Most of what the rule does goes one way along the
links and is described the other way. -/
structure Linked (nodes : Array Node) : Prop where
  parentsFirst : ParentsFirst nodes
  mem_childrenIn_iff : ∀ {id child : Nat},
    child ∈ childrenIn nodes id ↔ parentIn nodes child = some id
  sorted : ∀ id : Nat, (childrenIn nodes id).Pairwise (· < ·)

/-- Without nodes there is nothing to be linked. -/
theorem linked_empty : Linked #[] where
  parentsFirst := fun _ _ hp => by simp [parentIn] at hp
  mem_childrenIn_iff := by simp [childrenIn, parentIn]
  sorted := by simp [childrenIn]

theorem mem_childrenIn_attach_iff {nodes : Array Node} {node : Node} (h : Linked nodes)
    (bare : node.children = #[])
    (bound : ∀ {parent : Nat}, node.parent = some parent → parent < nodes.size) {id child : Nat} :
    child ∈ childrenIn (attach nodes node) id ↔ parentIn (attach nodes node) child = some id := by
  have parents := parentsFirst_attach h.parentsFirst bound
  rcases Nat.lt_or_ge id nodes.size with lt | ge
  · rw [childrenIn_attach_of_lt lt, List.mem_append, h.mem_childrenIn_iff,
      List.mem_ite_nil_right, List.mem_singleton]
    rcases Nat.lt_trichotomy child nodes.size with old | rfl | far
    · rw [parentIn_attach_of_lt old]
      exact or_iff_left fun entered => absurd entered.2 (Nat.ne_of_lt old)
    · rw [parentIn_attach_size, parentIn_of_size_le (Nat.le_refl _)]
      simp
    · rw [parentIn_of_size_le (by omega), parentIn_of_size_le (by rw [size_attach]; omega)]
      simp [Nat.ne_of_gt far]
  · -- a node at or past the end has no children, and nothing names it as its parent
    have none : childrenIn (attach nodes node) id = [] := by
      rcases Nat.eq_or_lt_of_le ge with rfl | gt
      · rw [childrenIn_attach_size, bare]
      · exact childrenIn_of_size_le (by rw [size_attach]; omega)
    rw [none]
    refine iff_of_false (by simp) fun hp => ?_
    have below := lt_size_of_parentIn hp
    have above := parents hp
    rw [size_attach] at below
    omega

/-- Numbering one more node links it to its parent, and no other link changes. -/
theorem linked_attach {nodes : Array Node} {node : Node} (h : Linked nodes)
    (bare : node.children = #[])
    (bound : ∀ {parent : Nat}, node.parent = some parent → parent < nodes.size) :
    Linked (attach nodes node) where
  parentsFirst := parentsFirst_attach h.parentsFirst bound
  mem_childrenIn_iff := mem_childrenIn_attach_iff h bare bound
  sorted := by
    intro id
    rcases Nat.lt_trichotomy id nodes.size with lt | rfl | gt
    · rw [childrenIn_attach_of_lt lt, List.pairwise_append]
      refine ⟨h.sorted id, by split <;> simp, ?_⟩
      -- the children that are there already have smaller numbers than the new node
      intro old mem new entered
      rw [List.mem_ite_nil_right, List.mem_singleton] at entered
      rw [entered.2]
      exact lt_size_of_parentIn (h.mem_childrenIn_iff.mp mem)
    · rw [childrenIn_attach_size, bare]
      exact .nil
    · rw [childrenIn_of_size_le (by rw [size_attach]; omega)]
      exact .nil

/-- **Lowering links every node**, whatever waits to be lowered.  It is an instance of
`lowerFrom_induction`. -/
theorem linked_lowerFrom (source : List Char) (nodes : Array Node) (work : List Pending)
    (h : Linked nodes) (waits : ∀ pending ∈ work, WaitsBelow nodes pending) :
    Linked (lowerFrom source nodes work) := by
  refine lowerFrom_induction source Linked WaitsBelow ?_ ?_ ?_ nodes work h waits
  · intro nodes pending linked wait
    exact linked_attach linked rfl fun hp => wait hp
  · intro nodes pending _ child mem
    exact waitsBelow_of_mem_below _ mem
  · intro nodes pending other wait
    exact waitsBelow_attach wait _

/-- **Lowered trees are linked**, whatever the raw tree is. -/
theorem linked_ofRaw (source : String) (raw : RawTree) (hasErrors : Bool) :
    Linked (SyntaxTree.ofRaw source raw hasErrors).nodes := by
  refine linked_lowerFrom source.toList #[] _ linked_empty ?_
  intro pending mem parent hp
  rw [List.mem_singleton] at mem
  subst mem
  simp at hp

namespace SyntaxTree

variable {tree : SyntaxTree}

/-- In a linked tree children and parents are one relation. -/
theorem mem_children_iff (linked : Linked tree.nodes) {id child : Nat} :
    child ∈ tree.children id ↔ tree.parent? child = some id :=
  linked.mem_childrenIn_iff

/-- No child is listed twice, as the lists are in source order. -/
theorem children_nodup (linked : Linked tree.nodes) (id : Nat) : (tree.children id).Nodup :=
  (linked.sorted id).imp fun lt => Nat.ne_of_lt lt

end SyntaxTree

end AliasHoist
