import AliasHoist.Proofs.Tree.Preorder
import Mathlib.Data.List.Sort
import Mathlib.Logic.Relation

/-!
# Ways up and down a tree

A syntax tree is walked in three ways: up along the parents, down along the lists of children, and
through the run of numbers behind a node.  In a lowered tree the three meet the same nodes.

## Main Definitions

* `SyntaxTree.Reaches`: a node is reached from another through one or more lists of children.

## Main Statements

* `SyntaxTree.mem_ancestors_iff_reaches`: whoever stands above a node reaches it;
* `SyntaxTree.descendants_eq_flatMap`: the nodes below a node are its children, each followed by the
  nodes below it;
* `SyntaxTree.ways_up_and_down_agree`: the three walks, their order and where they end.

### What is load-bearing

That links agree (`Linked`) ties the way up to the lists of children, and that nodes are in order
(`InOrder`) ties it to the run of numbers.
-/

namespace AliasHoist

namespace SyntaxTree

variable (tree : SyntaxTree)

/-- **A node is reached from another** through one or more lists of children.  It is the
way down that a recursive visit takes. -/
def Reaches : Nat → Nat → Prop := Relation.TransGen fun id child => child ∈ tree.children id

/-! ## Up and down -/

variable {tree}

/-- **Whoever stands above a node reaches it**, and nobody else does.  The one is found
by a loop and the other by a relation, so each step of the loop is matched with a list
of children. -/
theorem mem_ancestors_iff_reaches (linked : Linked tree.nodes) {above id : Nat} :
    above ∈ tree.ancestors id ↔ tree.Reaches above id := by
  constructor
  · intro mem
    induction id using Nat.strongRecOn with
    | _ id ih =>
        obtain ⟨parent, hp, mem⟩ := tree.mem_ancestors_iff.mp mem
        have child : id ∈ tree.children parent := (mem_children_iff linked).mpr hp
        rcases List.mem_cons.mp mem with rfl | further
        · exact .single child
        · exact .tail (ih parent (tree.parent_lt hp) further) child
  · intro reaches
    induction reaches with
    | single child =>
        exact tree.mem_ancestors_iff.mpr
          ⟨above, (mem_children_iff linked).mp child, List.mem_cons_self⟩
    | @tail middle id _ child ih =>
        exact tree.mem_ancestors_iff.mpr
          ⟨middle, (mem_children_iff linked).mp child, List.mem_cons_of_mem _ ih⟩

/-- The run of numbers behind a node is what its lists of children reach. -/
theorem mem_descendants_iff_reaches (linked : Linked tree.nodes) (ordered : InOrder tree.nodes)
    {above id : Nat} : id ∈ tree.descendants above ↔ tree.Reaches above id :=
  (mem_descendants_iff ordered).trans (mem_ancestors_iff_reaches linked)

/-! ## Order -/

/-- **Going up the numbers shrink.**  Nothing is asked of the tree: the loop goes on
only while the numbers shrink. -/
theorem pairwise_ancestors (id : Nat) : (id :: tree.ancestors id).Pairwise (· > ·) := by
  induction id using Nat.strongRecOn with
  | _ id ih =>
      refine List.pairwise_cons.mpr ⟨fun above mem => tree.lt_of_mem_ancestors mem, ?_⟩
      cases hp : tree.parent? id with
      | none =>
          rw [tree.ancestors_of_none hp]
          exact .nil
      | some parent =>
          rw [tree.ancestors_of_some hp]
          exact ih parent (tree.parent_lt hp)

/-! ## Ends -/

/-- The root has no parent. -/
theorem parent?_root : tree.parent? root = none := by
  cases hp : tree.parent? root with
  | none => rfl
  | some parent => exact absurd (tree.parent_lt hp) (Nat.not_lt_zero parent)

/-- **Every node but the root has a parent.** -/
theorem exists_parent? (ordered : InOrder tree.nodes) {id : Nat} (lt : id < tree.size)
    (ne : id ≠ root) : ∃ parent, tree.parent? id = some parent := by
  obtain ⟨before, rfl⟩ := Nat.exists_eq_succ_of_ne_zero ne
  obtain ⟨parent, hp, _⟩ := ordered before lt
  exact ⟨parent, hp⟩

/-- **The way up from a node ends at the root.**  Every other node has a parent with a
smaller number, so the loop does not end before. -/
theorem getLast?_ancestors (ordered : InOrder tree.nodes) {id : Nat} (lt : id < tree.size) :
    (id :: tree.ancestors id).getLast? = some root := by
  induction id using Nat.strongRecOn with
  | _ id ih =>
      by_cases ne : id = root
      · subst ne
        rw [tree.ancestors_of_none parent?_root]
        rfl
      · obtain ⟨parent, hp⟩ := exists_parent? ordered lt ne
        have hlt := tree.parent_lt hp
        rw [tree.ancestors_of_some hp, List.getLast?_cons_cons]
        exact ih parent hlt (Nat.lt_trans hlt lt)

/-- Numbering takes no node away. -/
theorem size_le_size_lowerFrom (source : List Char) (nodes : Array Node) (work : List Pending) :
    nodes.size ≤ (lowerFrom source nodes work).size := by
  induction nodes, work using lowerFrom.induct source with
  | case1 nodes => rw [lowerFrom]
  | case2 nodes pending rest ih =>
      rw [lowerFrom]
      rw [size_attach] at ih
      omega

/-- The root is always kept. -/
theorem size_ofRaw_pos (source : String) (raw : RawTree) (hasErrors : Bool) :
    0 < (ofRaw source raw hasErrors).size := by
  let root : Pending := { tree := raw, parent := none, field := none }
  show 0 < (lowerFrom source.toList #[] [root]).size
  rw [lowerFrom]
  refine Nat.lt_of_lt_of_le ?_ (size_le_size_lowerFrom _ _ _)
  rw [size_attach]
  omega

/-- A number names a node exactly if the way up from it ends at the root.  A number that
names no node has no ancestors at all, and so it is the last one on its own way. -/
theorem getLast?_ancestors_iff (ordered : InOrder tree.nodes) (nonempty : 0 < tree.size)
    {id : Nat} : (id :: tree.ancestors id).getLast? = some root ↔ id < tree.size := by
  refine ⟨fun last => Nat.lt_of_not_le fun ge => ?_, getLast?_ancestors ordered⟩
  rw [tree.ancestors_of_none (parentIn_of_size_le ge), List.getLast?_singleton,
    Option.some.injEq] at last
  subst last
  exact Nat.not_lt_of_le ge nonempty

/-! ## The nodes below, child by child -/

/-- A node stands above no sibling. -/
theorem not_mem_ancestors_of_parent? {id first second : Nat} (hfirst : tree.parent? first = some id)
    (hsecond : tree.parent? second = some id) : first ∉ tree.ancestors second := by
  intro mem
  obtain ⟨parent, hp, mem⟩ := tree.mem_ancestors_iff.mp mem
  obtain rfl : id = parent := Option.some.inj (hsecond.symm.trans hp)
  have lt := tree.parent_lt hfirst
  rcases List.mem_cons.mp mem with rfl | further
  · exact Nat.lt_irrefl _ lt
  · exact Nat.lt_asymm lt (tree.lt_of_mem_ancestors further)

/-- What is below a child comes before the next one.  So the lists of children do not
overlap. -/
theorem lt_of_mem_descendants_sibling (ordered : InOrder tree.nodes) {id first second below : Nat}
    (hfirst : tree.parent? first = some id) (hsecond : tree.parent? second = some id)
    (lt : first < second) (mem : below ∈ first :: tree.descendants first) : below < second := by
  rcases List.mem_cons.mp mem with rfl | further
  · exact lt
  · refine Nat.lt_of_not_le fun ge => ?_
    have above := (mem_descendants_iff ordered).mp further
    exact not_mem_ancestors_of_parent? hfirst hsecond (mem_ancestors_of_le ordered above lt ge)

/-- **The nodes below a node are its children, each followed by the nodes below it.**
Both sides are in the order of the numbers and have the same nodes, so they are the same
list. -/
theorem descendants_eq_flatMap (linked : Linked tree.nodes) (ordered : InOrder tree.nodes)
    (id : Nat) :
    tree.descendants id = (tree.children id).flatMap fun child =>
      child :: tree.descendants child := by
  refine (tree.pairwise_descendants id).eq_of_mem_iff ?_ fun below => ?_
  · rw [List.pairwise_flatMap]
    refine ⟨fun child _ => ?_, ?_⟩
    · refine List.pairwise_cons.mpr ⟨fun below mem => ?_, tree.pairwise_descendants child⟩
      exact tree.lt_of_mem_ancestors ((mem_descendants_iff ordered).mp mem)
    · refine (linked.sorted id).imp_of_mem fun hfirst hsecond lt => ?_
      intro a ha b hb
      have parents := (mem_children_iff linked).mp hfirst
      have parents' := (mem_children_iff linked).mp hsecond
      have before := lt_of_mem_descendants_sibling ordered parents parents' lt ha
      rcases List.mem_cons.mp hb with rfl | further
      · exact before
      · exact Nat.lt_trans before
          (tree.lt_of_mem_ancestors ((mem_descendants_iff ordered).mp further))
  · -- the first step down from the node leads to one of its children
    rw [mem_descendants_iff_reaches linked ordered, Reaches, Relation.TransGen.head'_iff,
      List.mem_flatMap]
    refine exists_congr fun child => and_congr_right fun _ => ?_
    rw [List.mem_cons, mem_descendants_iff_reaches linked ordered, Reaches,
      Relation.reflTransGen_iff_eq_or_transGen]

/-! ## The three walks -/

/-- **Going up, going down and counting on meet the same nodes.**  In a lowered tree a node is
among the descendants of another exactly if that one is among its ancestors, and exactly if it is
reached from it through lists of children.  The descendants of a node come in the order of their
numbers, each of them once.  The ancestors of a node have smaller and smaller numbers, are no more
than its number, and end at the root exactly if the number names a node at all. -/
theorem ways_up_and_down_agree (source : String) (raw : RawTree) (hasErrors : Bool) (a b : Nat) :
    (b ∈ (ofRaw source raw hasErrors).descendants a ↔
      a ∈ (ofRaw source raw hasErrors).ancestors b) ∧
    (a ∈ (ofRaw source raw hasErrors).ancestors b ↔ (ofRaw source raw hasErrors).Reaches a b) ∧
    ((ofRaw source raw hasErrors).descendants a).Pairwise (· < ·) ∧
    (b :: (ofRaw source raw hasErrors).ancestors b).Pairwise (· > ·) ∧
    ((ofRaw source raw hasErrors).ancestors b).length ≤ b ∧
    ((b :: (ofRaw source raw hasErrors).ancestors b).getLast? =
        some root ↔
      b < (ofRaw source raw hasErrors).size) := by
  have linked := linked_ofRaw source raw hasErrors
  have ordered := inOrder_ofRaw source raw hasErrors
  refine ⟨mem_descendants_iff ordered, mem_ancestors_iff_reaches linked, pairwise_descendants _ a,
    pairwise_ancestors b, length_ancestors_le _ b, getLast?_ancestors_iff ordered ?_⟩
  exact size_ofRaw_pos source raw hasErrors

end SyntaxTree

end AliasHoist
