import AliasHoist.Tree.Raw
import AliasHoist.Tree.Basic

/-!
# From raw trees to syntax trees

Lowering drops the anonymous tokens of a raw tree, numbers the nodes that remain in source order,
and reads their kinds and fields.

## Main Definitions

* `Pending`: a raw tree that waits to be numbered, with its parent's number;
* `lowerFrom`: numbers the pending trees one after the other, with an explicit list of what is
  still to do, so that the depth of a source does not matter;
* `SyntaxTree.ofRaw`: the syntax tree of a raw tree.

## Main Statements

* `parentIn_lowerFrom_lt`: every parent is numbered before its children.
-/

namespace AliasHoist

/-- A raw tree that waits for its number. -/
structure Pending where
  tree : RawTree
  parent : Option Nat
  field : Option Field

namespace Pending

/-- The node of a pending tree's root, still without children. -/
def node (source : List Char) (pending : Pending) : Node where
  kind := .ofGrammar pending.tree.head.kind
  grammarKind := pending.tree.head.kind
  field := pending.field
  span := .ofOffsets source pending.tree.head.startByte pending.tree.head.stopByte
  parent := pending.parent
  children := #[]

/-- The surviving children of a pending tree, waiting under the number given to its root. -/
def below (pending : Pending) (id : Nat) : List Pending :=
  pending.tree.keptChildren.map fun child =>
    { tree := child, parent := some id, field := child.head.field.bind Field.ofGrammar? }

/-- The number of nodes that a list of pending trees holds. -/
def load (pending : List Pending) : Nat := RawTree.sizeAll (pending.map (·.tree))

theorem load_below_append_lt (pending : Pending) (id : Nat) (rest : List Pending) :
    load (pending.below id ++ rest) < load (pending :: rest) := by
  have := RawTree.sizeAll_keptChildren_lt pending.tree
  simp only [load, below, List.map_append, List.map_map, List.map_cons, RawTree.sizeAll_append,
    RawTree.sizeAll]
  have same : List.map ((fun x : Pending => x.tree) ∘ fun child : RawTree =>
      { tree := child, parent := some id, field := child.head.field.bind Field.ofGrammar? })
      pending.tree.keptChildren = pending.tree.keptChildren := by
    simp [Function.comp_def]
  rw [same]
  omega

end Pending

/-- Appends a node and enters its number among its parent's children. -/
def attach (nodes : Array Node) (node : Node) : Array Node :=
  let numbered := match node.parent with
    | some parent => nodes.modify parent fun p => { p with children := p.children.push nodes.size }
    | none => nodes
  numbered.push node

/-- Numbers the pending trees in order, each of them followed by what is below it. -/
def lowerFrom (source : List Char) (nodes : Array Node) : List Pending → Array Node
  | [] => nodes
  | pending :: rest =>
      lowerFrom source (attach nodes (pending.node source)) (pending.below nodes.size ++ rest)
termination_by work => Pending.load work
decreasing_by exact Pending.load_below_append_lt pending nodes.size rest

/-! ### Parents come first -/

@[simp] theorem size_attach (nodes : Array Node) (node : Node) :
    (attach nodes node).size = nodes.size + 1 := by
  unfold attach
  split <;> simp

theorem parentIn_attach_of_lt {nodes : Array Node} {node : Node} {id : Nat} (h : id < nodes.size) :
    parentIn (attach nodes node) id = parentIn nodes id := by
  unfold attach parentIn
  split
  · rename_i parent _
    rw [Array.getElem?_push_lt (by simpa using h), Array.getElem_modify]
    split <;> simp_all
  · rw [Array.getElem?_push_lt h]
    simp [h]

theorem parentIn_attach_size (nodes : Array Node) (node : Node) :
    parentIn (attach nodes node) nodes.size = node.parent := by
  unfold attach parentIn
  split
  · rename_i parent heq
    have hs : (nodes.modify parent
        fun p => { p with children := p.children.push nodes.size }).size = nodes.size := by simp
    simp only [Array.getElem?_push, hs, if_true, Option.bind_some]
  · simp

theorem parentIn_of_size_le {nodes : Array Node} {id : Nat} (h : nodes.size ≤ id) :
    parentIn nodes id = none := by
  simp [parentIn, h]

/-- Every node of the array has its parent before it. -/
def ParentsFirst (nodes : Array Node) : Prop :=
  ∀ ⦃id parent : Nat⦄, parentIn nodes id = some parent → parent < id

theorem parentsFirst_attach {nodes : Array Node} {node : Node} (h : ParentsFirst nodes)
    (bound : ∀ {parent : Nat}, node.parent = some parent → parent < nodes.size) :
    ParentsFirst (attach nodes node) := by
  intro id parent hp
  rcases Nat.lt_trichotomy id nodes.size with lt | eq | gt
  · exact h (parentIn_attach_of_lt lt ▸ hp)
  · subst eq
    rw [parentIn_attach_size] at hp
    exact bound hp
  · rw [parentIn_of_size_le (by simp; omega)] at hp
    simp at hp

/-- **Every parent is numbered before its children**, whatever is lowered, as long as the pending
trees wait under numbers already given. -/
theorem parentIn_lowerFrom_lt (source : List Char) (nodes : Array Node) (work : List Pending)
    (h : ParentsFirst nodes)
    (bound : ∀ pending ∈ work, ∀ {parent : Nat}, pending.parent = some parent →
      parent < nodes.size) :
    ParentsFirst (lowerFrom source nodes work) := by
  induction nodes, work using lowerFrom.induct source with
  | case1 nodes =>
      rw [lowerFrom]
      exact h
  | case2 nodes pending rest ih =>
      rw [lowerFrom]
      refine ih (parentsFirst_attach h fun hp => bound pending (by simp) hp) ?_
      intro other mem parent hp
      rcases List.mem_append.mp mem with below | later
      · simp only [Pending.below, List.mem_map] at below
        obtain ⟨child, _, rfl⟩ := below
        simp only [Option.some.injEq] at hp
        simp only [size_attach]
        omega
      · have := bound other (by simp [later]) hp
        simp only [size_attach]
        omega

namespace SyntaxTree

/-- **The syntax tree of a raw tree.** -/
def ofRaw (source : String) (raw : RawTree) (hasErrors : Bool) : SyntaxTree where
  source := source
  nodes := lowerFrom source.toList #[] [{ tree := raw, parent := none, field := none }]
  hasErrors := hasErrors
  parent_lt := parentIn_lowerFrom_lt source.toList #[] _ (fun _ _ hp => by simp [parentIn] at hp)
    (fun pending mem => by simp_all)

end SyntaxTree

end AliasHoist
