import AliasHoist.Proofs.Tree.Nesting
import Mathlib.Data.List.TakeWhile

/-!
# The order of lowered nodes

Lowering numbers a node, then everything below it, then what comes after it.  So the nodes below a node
are a run of numbers that follows its own, which is how they are looked up.

## Main Definitions

* `AboveIn`: a node of an array, or one that stands above it;
* `InOrder`: the parent of every node but the first is the node before it, or stands above that one;
* `Hang`: pending trees wait at the last node, the deepest first.

## Main Statements

* `inOrder_ofRaw`: lowered trees are in order;
* `SyntaxTree.mem_descendants_iff`: the descendants of a node are the nodes that it stands above.

### What is load-bearing

The pending trees are a stack: each waits under a node that the trees before it are below.  So the
next tree to be numbered takes nobody's place, and those behind it still wait above the last node.
-/

namespace AliasHoist

variable {nodes : Array Node}

/-! ## Ways up in an array -/

/-- **A node of an array, or one that stands above it.**  It is the way up in an array
that is still growing, where `ancestors` is not yet to be had. -/
inductive AboveIn (nodes : Array Node) : Nat → Nat → Prop where
  | self (id : Nat) : AboveIn nodes id id
  | step {id parent above : Nat} (hp : parentIn nodes id = some parent)
      (further : AboveIn nodes parent above) : AboveIn nodes id above

/-- Numbering one more node leaves the ways up as they are.  Parents are entered once
and never changed. -/
theorem AboveIn.attach {id above : Nat} (h : AboveIn nodes id above) (node : Node) :
    AboveIn (attach nodes node) id above := by
  induction h with
  | self id => exact .self id
  | step hp _ ih =>
      refine .step ?_ ih
      rw [parentIn_attach_of_lt (lt_size_of_parentIn hp)]
      exact hp

/-- The way up from the last node goes through its parent. -/
theorem aboveIn_attach_size {node : Node} {parent above : Nat} (hp : node.parent = some parent)
    (h : AboveIn nodes parent above) : AboveIn (attach nodes node) nodes.size above :=
  .step ((parentIn_attach_size nodes node).trans hp) (h.attach node)

/-! ## Order -/

/-- **The nodes of an array are in order**: the parent of every node but the first is
the node before it, or stands above that one.  It is a condition on neighbours that
makes every subtree a run of numbers. -/
def InOrder (nodes : Array Node) : Prop :=
  ∀ id, id + 1 < nodes.size → ∃ parent, parentIn nodes (id + 1) = some parent ∧
    AboveIn nodes id parent

/-- **Pending trees that hang at the last node**: they wait under it or under nodes
above it, and those further back wait further up.  The second field is what makes the
list of pending trees a stack. -/
structure Hang (nodes : Array Node) (last : Nat) (work : List Pending) : Prop where
  waits : ∀ pending ∈ work, ∃ parent, pending.parent = some parent ∧ AboveIn nodes last parent
  stacked : work.Pairwise fun first later => ∀ {parent above : Nat},
    first.parent = some parent → later.parent = some above → AboveIn nodes parent above

/-- What is below a node hangs at it.  They all wait under the node itself. -/
theorem hang_below (nodes : Array Node) (pending : Pending) (id : Nat) :
    Hang nodes id (pending.below id) where
  waits child mem := ⟨id, parent_of_mem_below mem, .self id⟩
  stacked := by
    refine List.pairwise_of_forall_mem_list fun first hfirst later hlater parent above hp ha => ?_
    rw [parent_of_mem_below hfirst, Option.some.injEq] at hp
    rw [parent_of_mem_below hlater, Option.some.injEq] at ha
    exact hp ▸ ha ▸ .self id

/-- When the first of the pending trees is numbered, the others and those below it hang
at it.  The new last node is below the parent of the first, and the others wait at that
parent or further up. -/
theorem Hang.attach {last : Nat} {pending : Pending} {rest : List Pending}
    (h : Hang nodes last (pending :: rest)) (source : List Char) :
    Hang (attach nodes (pending.node source)) nodes.size (pending.below nodes.size ++ rest) := by
  have below := hang_below (AliasHoist.attach nodes (pending.node source)) pending nodes.size
  obtain ⟨first, stacked⟩ := List.pairwise_cons.mp h.stacked
  obtain ⟨parent, hp, _⟩ := h.waits pending List.mem_cons_self
  -- the trees behind the numbered one wait above its parent
  have further : ∀ later ∈ rest, ∃ above, later.parent = some above ∧
      AboveIn (AliasHoist.attach nodes (pending.node source)) nodes.size above := by
    intro later mem
    obtain ⟨above, ha, _⟩ := h.waits later (List.mem_cons_of_mem _ mem)
    exact ⟨above, ha, aboveIn_attach_size hp (first later mem hp ha)⟩
  constructor
  · intro other mem
    rcases List.mem_append.mp mem with child | later
    · exact below.waits other child
    · exact further other later
  · rw [List.pairwise_append]
    refine ⟨below.stacked, stacked.imp ?_, ?_⟩
    · intro a b apart parent above hp ha
      exact (apart hp ha).attach _
    · intro child hchild later hlater parent above hp ha
      rw [parent_of_mem_below hchild, Option.some.injEq] at hp
      obtain ⟨found, hfound, way⟩ := further later hlater
      rw [hfound, Option.some.injEq] at ha
      exact hp ▸ ha ▸ way

/-- Numbering the first of the pending trees keeps the order. -/
theorem inOrder_attach {last : Nat} {pending : Pending} {rest : List Pending} (h : InOrder nodes)
    (size : nodes.size = last + 1) (hang : Hang nodes last (pending :: rest))
    (source : List Char) : InOrder (attach nodes (pending.node source)) := by
  intro id lt
  rw [size_attach] at lt
  rcases Nat.lt_or_ge (id + 1) nodes.size with old | new
  · obtain ⟨parent, hp, way⟩ := h id old
    exact ⟨parent, (parentIn_attach_of_lt old).trans hp, way.attach _⟩
  · obtain ⟨parent, hp, way⟩ := hang.waits pending List.mem_cons_self
    obtain rfl : id = last := by omega
    refine ⟨parent, ?_, way.attach _⟩
    rw [← size, parentIn_attach_size]
    exact hp

/-- **Lowering keeps the order**, as long as what is pending hangs at the last node.
Unlike links and spans this depends on the whole list of pending trees, so it has an
induction of its own. -/
theorem inOrder_lowerFrom (source : List Char) (nodes : Array Node) (work : List Pending)
    {last : Nat} (size : nodes.size = last + 1) (h : InOrder nodes) (hang : Hang nodes last work) :
    InOrder (lowerFrom source nodes work) := by
  induction nodes, work using lowerFrom.induct source generalizing last with
  | case1 nodes =>
      rw [lowerFrom]
      exact h
  | case2 nodes pending rest ih =>
      rw [lowerFrom]
      exact ih (size_attach nodes _) (inOrder_attach h size hang source) (hang.attach source)

/-- **Lowered trees are in order.**  The root is numbered first, and everything else
hangs at it. -/
theorem inOrder_ofRaw (source : String) (raw : RawTree) (hasErrors : Bool) :
    InOrder (SyntaxTree.ofRaw source raw hasErrors).nodes := by
  let root : Pending := { tree := raw, parent := none, field := none }
  show InOrder (lowerFrom source.toList #[] [root])
  rw [lowerFrom, List.append_nil]
  have one : (attach #[] (root.node source.toList)).size = 0 + 1 := size_attach _ _
  refine inOrder_lowerFrom source.toList _ _ one ?_ (hang_below _ root 0)
  intro id lt
  omega

namespace SyntaxTree

variable {tree : SyntaxTree}

theorem mem_of_aboveIn {id above : Nat} (h : AboveIn tree.nodes id above) :
    above ∈ id :: tree.ancestors id := by
  induction h with
  | self id => exact List.mem_cons_self
  | step hp _ ih => exact List.mem_cons_of_mem _ (tree.mem_ancestors_iff.mpr ⟨_, hp, ih⟩)

/-- A node that has someone above it is a node of the tree.  Numbers that were not given
have nobody above them. -/
theorem lt_size_of_mem_ancestors {id above : Nat} (mem : above ∈ tree.ancestors id) :
    id < tree.size := by
  obtain ⟨parent, hp, _⟩ := tree.mem_ancestors_iff.mp mem
  exact lt_size_of_parentIn hp

/-- **Nobody is left out between**: a node above another is above all nodes between the
two.  It goes from one number to the next by `InOrder`. -/
theorem mem_ancestors_of_le (ordered : InOrder tree.nodes) {above id later : Nat}
    (mem : above ∈ tree.ancestors later) (lt : above < id) (le : id ≤ later) :
    above ∈ tree.ancestors id := by
  induction later with
  | zero => omega
  | succ before ih =>
      rcases Nat.eq_or_lt_of_le le with rfl | lt'
      · exact mem
      · obtain ⟨parent, hp, way⟩ := ordered before (lt_size_of_mem_ancestors mem)
        obtain ⟨found, hfound, higher⟩ := tree.mem_ancestors_iff.mp mem
        obtain rfl : parent = found := Option.some.inj (hp.symm.trans hfound)
        have still : above ∈ before :: tree.ancestors before :=
          tree.mem_cons_ancestors_trans (mem_of_aboveIn way) higher
        rcases List.mem_cons.mp still with rfl | still
        · omega
        · exact ih still (by omega)

/-- Going down the numbers grow.  Searches that go over them stop at the least that
counts. -/
theorem pairwise_descendants (tree : SyntaxTree) (id : Nat) :
    (tree.descendants id).Pairwise (· < ·) :=
  .sublist (List.takeWhile_sublist _) List.pairwise_lt_range'

/-- **The descendants of a node are the nodes that it stands above.**  The program looks
downward by numbers and upward by parents; here the two meet. -/
theorem mem_descendants_iff (ordered : InOrder tree.nodes) {id above : Nat} :
    id ∈ tree.descendants above ↔ above ∈ tree.ancestors id := by
  constructor
  · intro mem
    simpa using List.mem_takeWhile_imp mem
  · intro mem
    have lt := tree.lt_of_mem_ancestors mem
    have small := lt_size_of_mem_ancestors mem
    obtain ⟨more, hmore⟩ : ∃ more, tree.size - (above + 1) = (id - above) + more :=
      ⟨tree.size - (id + 1), by omega⟩
    rw [descendants, hmore, ← List.range'_append_1, List.takeWhile_append_of_pos]
    · refine List.mem_append_left _ (List.mem_range'_1.mpr ?_)
      omega
    · intro between hbetween
      rw [List.mem_range'_1] at hbetween
      rw [List.contains_iff_mem]
      exact mem_ancestors_of_le ordered mem (by omega) (by omega)

end SyntaxTree

end AliasHoist
