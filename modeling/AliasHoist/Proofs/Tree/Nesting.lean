import AliasHoist.Proofs.Tree.Lowering

/-!
# Nested spans

The parser gives every node a range of the source, and the range of a child lies inside that of its
parent.  Lowering skips nodes but keeps the rest under their own parents, so the spans of a syntax
tree are nested in the same way, and a node lies inside everything above it.

## Main Definitions

* `Text.isRange`: two offsets cut a text between characters, in the right order;
* `RawTree.fits`: what is assumed of a parser's answer for a source;
* `WellSpanned`: what lowering makes of it.

## Main Statements

* `wellSpanned_ofRaw`: a raw tree that fits its source is lowered to nested spans;
* `WellSpanned.contains_of_mem_ancestors`: what stands above a node covers it;
* `WellSpanned.start_lt_stop`: a span over several lines is not empty.

## Design Notes

`RawTree.fits` is a Boolean function, so that it can be evaluated on an answer of the parser.  It
speaks of all raw nodes, those that lowering drops included.  Rows and columns need no assumption:
`Span.ofOffsets` counts them from the source.
-/

namespace AliasHoist

/-- Whether two byte offsets bound a part of a text: in the right order, within the
text, and between characters.  Slices at other offsets would cut characters in two. -/
def Text.isRange (source : List Char) (start stop : Nat) : Bool :=
  start ≤ stop && Text.isBoundary start source && Text.isBoundary stop source

/-- Whether the range of one node lies inside that of another.  Equal ranges are
allowed: a node with a single child often has its range. -/
def RawNode.covers (outer inner : RawNode) : Bool :=
  outer.startByte ≤ inner.startByte && inner.stopByte ≤ outer.stopByte

namespace RawTree

mutual

/-- **Whether a raw tree fits a source**: every node has a range of the source, inside
the range of its parent.  It is all that is assumed about positions anywhere in the
project. -/
def fits (source : List Char) : RawTree → Bool
  | node head children =>
      Text.isRange source head.startByte head.stopByte && fitAll source head children

/-- Whether all trees of a list fit a source and lie inside the range of their parent. -/
def fitAll (source : List Char) (parent : RawNode) : List RawTree → Bool
  | [] => true
  | child :: rest => parent.covers child.head && fits source child && fitAll source parent rest

end

/-- A list of trees fits when each of them does. -/
theorem fitAll_iff {source : List Char} {parent : RawNode} {children : List RawTree} :
    fitAll source parent children = true ↔
      ∀ child ∈ children, parent.covers child.head = true ∧ child.fits source = true := by
  induction children with
  | nil => simp [fitAll]
  | cons child rest ih => simp [fitAll, ih]

/-- A tree fits when its own range does and its children lie inside. -/
theorem fits_iff {source : List Char} {tree : RawTree} :
    tree.fits source = true ↔
      Text.isRange source tree.head.startByte tree.head.stopByte = true ∧
        ∀ child ∈ tree.children, tree.head.covers child.head = true ∧ child.fits source = true := by
  cases tree with
  | node head children => rw [fits, Bool.and_eq_true, fitAll_iff]; rfl

/-- Lowering only skips children, it never makes any. -/
theorem mem_children_of_mem_keptChildren {tree child : RawTree} (h : child ∈ tree.keptChildren) :
    child ∈ tree.children :=
  (List.mem_filter.mp h).1

end RawTree

/-! ## Spans in an array of nodes -/

/-- **The spans of an array of nodes are nested ranges of the source.**  Siblings may
overlap; nothing in the rule needs them apart. -/
structure WellSpanned (source : List Char) (nodes : Array Node) : Prop where
  /-- Positions are counted from the offsets. -/
  ofOffsets : ∀ {id : Nat} {node : Node}, nodes[id]? = some node →
    node.span = .ofOffsets source node.span.startByte node.span.stopByte
  isRange : ∀ {id : Nat} {node : Node}, nodes[id]? = some node →
    Text.isRange source node.span.startByte node.span.stopByte = true
  contains : ∀ {id parent : Nat} {node : Node}, nodes[id]? = some node →
    node.parent = some parent →
      ∃ above, nodes[parent]? = some above ∧ above.span.contains node.span = true

/-- An entry of the array after a step is the new node, or an old one with its span and
its parent.  A new child is entered in the list of children, which spans do not depend
on. -/
theorem eq_or_exists_of_getElem?_attach {nodes : Array Node} {node entry : Node} {id : Nat}
    (h : (attach nodes node)[id]? = some entry) :
    (id = nodes.size ∧ entry = node) ∨
      ∃ old, nodes[id]? = some old ∧ entry.span = old.span ∧ entry.parent = old.parent := by
  rw [getElem?_attach] at h
  split at h
  · rename_i heq
    exact Or.inl ⟨heq, (Option.some.inj h).symm⟩
  · obtain ⟨old, hold, rfl⟩ := Option.map_eq_some_iff.mp h
    refine Or.inr ⟨old, hold, ?_, ?_⟩
    · split <;> rfl
    · split <;> rfl

/-- A step keeps the span of every entry.  So a parent still covers what it covered. -/
theorem exists_span_attach {nodes : Array Node} {old : Node} {id : Nat} (h : nodes[id]? = some old)
    (node : Node) : ∃ entry, (attach nodes node)[id]? = some entry ∧ entry.span = old.span := by
  obtain ⟨lt, _⟩ := Array.getElem?_eq_some_iff.mp h
  rw [getElem?_attach_of_lt lt, h]
  refine ⟨_, rfl, ?_⟩
  split <;> rfl

/-- What a pending tree waits for: it fits the source, and inside the parent it waits
under.  The parent has its number by then and the tree has not, so the two are compared
through the array. -/
def FitsBelow (source : List Char) (nodes : Array Node) (pending : Pending) : Prop :=
  pending.tree.fits source = true ∧
    ∀ {parent : Nat}, pending.parent = some parent →
      ∃ above, nodes[parent]? = some above ∧
        above.span.contains (pending.node source).span = true

/-- It goes on fitting while other trees are numbered. -/
theorem fitsBelow_attach {source : List Char} {nodes : Array Node} {pending : Pending}
    (h : FitsBelow source nodes pending) (node : Node) :
    FitsBelow source (attach nodes node) pending := by
  refine ⟨h.1, fun hp => ?_⟩
  obtain ⟨above, habove, inside⟩ := h.2 hp
  obtain ⟨entry, hentry, hspan⟩ := exists_span_attach habove node
  exact ⟨entry, hentry, hspan ▸ inside⟩

/-- The children of a tree fit below it once it is numbered.  Their parent is the node
that was numbered just now. -/
theorem fitsBelow_of_mem_below {source : List Char} {nodes : Array Node} {pending child : Pending}
    (h : FitsBelow source nodes pending) (mem : child ∈ pending.below nodes.size) :
    FitsBelow source (attach nodes (pending.node source)) child := by
  have hparent := parent_of_mem_below mem
  simp only [Pending.below, List.mem_map] at mem
  obtain ⟨tree, kept, rfl⟩ := mem
  obtain ⟨covers, fits⟩ := (RawTree.fits_iff.mp h.1).2 tree
    (RawTree.mem_children_of_mem_keptChildren kept)
  refine ⟨fits, fun {parent} hp => ?_⟩
  rw [hparent, Option.some.injEq] at hp
  subst hp
  exact ⟨pending.node source, getElem?_attach_size _ _, covers⟩

/-- Numbering a tree that fits below its parent keeps the spans nested. -/
theorem wellSpanned_attach {source : List Char} {nodes : Array Node} {pending : Pending}
    (h : WellSpanned source nodes) (wait : FitsBelow source nodes pending) :
    WellSpanned source (attach nodes (pending.node source)) where
  ofOffsets := by
    intro id entry hentry
    rcases eq_or_exists_of_getElem?_attach hentry with ⟨_, rfl⟩ | ⟨old, hold, hspan, _⟩
    · rfl
    · rw [hspan]
      exact h.ofOffsets hold
  isRange := by
    intro id entry hentry
    rcases eq_or_exists_of_getElem?_attach hentry with ⟨_, rfl⟩ | ⟨old, hold, hspan, _⟩
    · exact (RawTree.fits_iff.mp wait.1).1
    · rw [hspan]
      exact h.isRange hold
  contains := by
    intro id parent entry hentry hp
    -- either way the parent is an old entry, which keeps its span
    have old : ∃ above, nodes[parent]? = some above ∧ above.span.contains entry.span = true := by
      rcases eq_or_exists_of_getElem?_attach hentry with ⟨_, rfl⟩ | ⟨old, hold, hspan, hparent⟩
      · exact wait.2 hp
      · rw [hspan]
        exact h.contains hold (hparent ▸ hp)
    obtain ⟨above, habove, inside⟩ := old
    obtain ⟨kept, hkept, hspan⟩ := exists_span_attach habove (pending.node source)
    exact ⟨kept, hkept, hspan ▸ inside⟩

/-- **Lowering nests the spans**, as long as what waits to be lowered fits.  Another
instance of `lowerFrom_induction`. -/
theorem wellSpanned_lowerFrom (source : List Char) (nodes : Array Node) (work : List Pending)
    (h : WellSpanned source nodes) (waits : ∀ pending ∈ work, FitsBelow source nodes pending) :
    WellSpanned source (lowerFrom source nodes work) := by
  refine lowerFrom_induction source (WellSpanned source) (FitsBelow source) ?_ ?_ ?_ nodes work h
    waits
  · intro nodes pending spanned wait
    exact wellSpanned_attach spanned wait
  · intro nodes pending wait child mem
    exact fitsBelow_of_mem_below wait mem
  · intro nodes pending other wait
    exact fitsBelow_attach wait _

theorem wellSpanned_empty (source : List Char) : WellSpanned source #[] where
  ofOffsets := by simp
  isRange := by simp
  contains := by simp

/-- A raw tree that fits its source is lowered to nested spans.  Together with
`linked_ofRaw` and `inOrder_ofRaw` it is what the rule knows of a tree. -/
theorem wellSpanned_ofRaw {source : String} {raw : RawTree} (h : raw.fits source.toList = true)
    (hasErrors : Bool) :
    WellSpanned source.toList (SyntaxTree.ofRaw source raw hasErrors).nodes := by
  refine wellSpanned_lowerFrom source.toList #[] _ (wellSpanned_empty _) ?_
  intro pending mem
  rw [List.mem_singleton] at mem
  subst mem
  exact ⟨h, fun hp => by simp at hp⟩

/-! ## The way up -/

namespace SyntaxTree

variable (tree : SyntaxTree)

/-- Who stands above a node is its parent or stands above that. -/
theorem mem_ancestors_iff {id above : Nat} :
    above ∈ tree.ancestors id ↔
      ∃ parent, tree.parent? id = some parent ∧ above ∈ parent :: tree.ancestors parent := by
  cases hp : tree.parent? id with
  | none => simp [tree.ancestors_of_none hp]
  | some parent => simp [tree.ancestors_of_some hp]

/-- Going up means going to a smaller index.  So inductions on numbers are inductions
along the way up. -/
theorem lt_of_mem_ancestors {id above : Nat} (mem : above ∈ tree.ancestors id) : above < id := by
  induction id using Nat.strongRecOn with
  | _ id ih =>
      obtain ⟨parent, hp, mem⟩ := tree.mem_ancestors_iff.mp mem
      have hlt := tree.parent_lt hp
      rcases List.mem_cons.mp mem with rfl | further
      · exact hlt
      · exact Nat.lt_trans (ih parent hlt further) hlt

/-- **The way up ends**: it has no more nodes than there are numbers below that of its
start.  It bounds the walk to the program, and with it the search for an anchor. -/
theorem length_ancestors_le (id : Nat) : (tree.ancestors id).length ≤ id := by
  induction id using Nat.strongRecOn with
  | _ id ih =>
      cases hp : tree.parent? id with
      | none => simp [tree.ancestors_of_none hp]
      | some parent =>
          have lt := tree.parent_lt hp
          have := ih parent lt
          rw [tree.ancestors_of_some hp, List.length_cons]
          omega

/-- Whoever is above a node is above all that is below it.  It needs no links, since the
way up uses parents only. -/
theorem mem_ancestors_trans {id middle above : Nat} (hmiddle : middle ∈ tree.ancestors id)
    (habove : above ∈ tree.ancestors middle) : above ∈ tree.ancestors id := by
  induction id using Nat.strongRecOn with
  | _ id ih =>
      obtain ⟨parent, hp, mem⟩ := tree.mem_ancestors_iff.mp hmiddle
      refine tree.mem_ancestors_iff.mpr ⟨parent, hp, List.mem_cons_of_mem _ ?_⟩
      rcases List.mem_cons.mp mem with rfl | further
      · exact habove
      · exact ih parent (tree.parent_lt hp) further

/-- The same with the two nodes allowed to be one. -/
theorem mem_cons_ancestors_trans {id middle above : Nat}
    (hmiddle : middle ∈ id :: tree.ancestors id)
    (habove : above ∈ middle :: tree.ancestors middle) : above ∈ id :: tree.ancestors id := by
  rcases List.mem_cons.mp hmiddle with rfl | higher
  · exact habove
  · rcases List.mem_cons.mp habove with rfl | further
    · exact hmiddle
    · exact List.mem_cons_of_mem _ (tree.mem_ancestors_trans higher further)

/-- An index within the tree names a node, whose span is the span at the index.  It
takes facts about nodes over to numbers. -/
theorem exists_node {id : Nat} (lt : id < tree.size) :
    ∃ node, tree.nodes[id]? = some node ∧ tree.span id = node.span := by
  refine ⟨tree.nodes[id], Array.getElem?_eq_getElem lt, ?_⟩
  rw [span, Array.getElem?_eq_getElem lt]
  rfl

end SyntaxTree

theorem Span.contains_iff {outer inner : Span} :
    outer.contains inner = true ↔
      outer.startByte ≤ inner.startByte ∧ inner.stopByte ≤ outer.stopByte := by
  simp [Span.contains]

theorem Span.contains_trans {outer middle inner : Span} (h : outer.contains middle = true)
    (h' : middle.contains inner = true) : outer.contains inner = true := by
  rw [Span.contains_iff] at *
  omega

namespace WellSpanned

variable {tree : SyntaxTree} (h : WellSpanned tree.source.toList tree.nodes)
include h

theorem span_isRange {id : Nat} (lt : id < tree.size) :
    Text.isRange tree.source.toList (tree.span id).startByte (tree.span id).stopByte = true := by
  obtain ⟨node, hnode, hspan⟩ := tree.exists_node lt
  rw [hspan]
  exact h.isRange hnode

theorem contains_of_parent {id parent : Nat} (hp : tree.parent? id = some parent) :
    (tree.span parent).contains (tree.span id) = true := by
  obtain ⟨node, hnode, hparent⟩ := Option.bind_eq_some_iff.mp hp
  obtain ⟨above, habove, inside⟩ := h.contains hnode hparent
  rw [SyntaxTree.span, habove, SyntaxTree.span, hnode]
  exact inside

/-- **What stands above a node covers it.**  An anchor therefore begins no later than
its literal. -/
theorem contains_of_mem_ancestors {id above : Nat} (mem : above ∈ tree.ancestors id) :
    (tree.span above).contains (tree.span id) = true := by
  induction id using Nat.strongRecOn with
  | _ id ih =>
      obtain ⟨parent, hp, mem⟩ := tree.mem_ancestors_iff.mp mem
      rcases List.mem_cons.mp mem with rfl | further
      · exact h.contains_of_parent hp
      · exact Span.contains_trans (ih parent (tree.parent_lt hp) further)
          (h.contains_of_parent hp)

/-- **A span over several lines is not empty**: two equal offsets are on one line.  Rows
are counted from the text, so this needs nothing of the parser. -/
theorem start_lt_stop {id : Nat} (lt : id < tree.size)
    (lines : (tree.span id).isMultiline = true) :
    (tree.span id).startByte < (tree.span id).stopByte := by
  obtain ⟨node, hnode, hspan⟩ := tree.exists_node lt
  have range := h.span_isRange lt
  simp only [Text.isRange, Bool.and_eq_true, decide_eq_true_eq] at range
  refine Nat.lt_of_le_of_ne range.1.1 fun heq => ?_
  rw [hspan] at heq lines
  rw [h.ofOffsets hnode, heq] at lines
  simp [Span.isMultiline, Span.ofOffsets] at lines

end WellSpanned

end AliasHoist
