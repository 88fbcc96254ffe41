import AliasHoist.Proofs.Tree.Nesting
import AliasHoist.Rule.Lint
import Mathlib.Data.List.Forall2

/-!
# What the rule reports

The rule finds its literals by a walk over all nodes that offer type slots; a function offers slots
that hang two levels below it.  This module says what is found without the walk: a literal is
reported when it stands first in the type slot of one of four kinds of owners and is written over
several lines, and then it is reported once.

## Main Definitions

* `IsFirstChild`: a child with a property that no child before it has;
* `IsTypePlace`: the places for a type that the rule looks at;
* `Offends`: the literals that the rule objects to;
* `Reports`: what a finding says about its literal.

## Main Statements

* `lint_reports_offending_once`: the findings are, one by one, those of the offending literals.

### What is load-bearing

That nothing is reported twice rests on the links of a lowered tree.  A slot has one parent, which
is its owner; the owner is the node that offers the slot, or a parameter, whose grandparent does.
So the owner determines who offers the slot, and no two slots have the same owner.
-/

namespace AliasHoist

variable (tree : SyntaxTree)

/-! ## The statement -/

/-- The first of a node's children with a property.  A tree of the parser can have
several children in a field, and the program looks at the first. -/
def IsFirstChild (p : Nat → Prop) (parent child : Nat) : Prop :=
  p child ∧ ∃ before after, tree.children parent = before ++ child :: after ∧
    ∀ other ∈ before, ¬ p other

/-- **The places for a type that the rule looks at.**  It is said with kinds and fields
only, as a reader of the rule would say it. -/
inductive IsTypePlace : Nat → Prop where
  | variableBinding {owner place : Nat} (kind : tree.kind owner = .variableBinding)
      (first : IsFirstChild tree (tree.field? · = some .type) owner place) : IsTypePlace place
  | classProperty {owner place : Nat} (kind : tree.kind owner = .classProperty)
      (first : IsFirstChild tree (tree.field? · = some .type) owner place) : IsTypePlace place
  | parameter {function parameters owner place : Nat}
      (functionKind : (tree.kind function).isFunctionLike = true)
      (list : IsFirstChild tree (tree.field? · = some .parameters) function parameters)
      (mem : owner ∈ tree.children parameters) (kind : tree.kind owner = .parameter)
      (first : IsFirstChild tree (tree.field? · = some .type) owner place) : IsTypePlace place
  | returnType {function place : Nat} (functionKind : (tree.kind function).isFunctionLike = true)
      (first : IsFirstChild tree (tree.field? · = some .returnType) function place) :
      IsTypePlace place

/-- **A literal that the rule objects to**: an object type over several lines that fills
a place for a type, with nothing but comments before it.  Comments are allowed before it
because the parser puts them among the children. -/
def Offends (literal : Nat) : Prop :=
  tree.kind literal = .objectTypeLiteral ∧ (tree.span literal).isMultiline = true ∧
    ∃ place, tree.kind place = .typeSlot ∧ IsTypePlace tree place ∧
      IsFirstChild tree (tree.kind · ≠ .comment) place literal

/-- What a finding says about its literal: where it is, and whether it can be hoisted.
The name of the alias and the reason for a missing fix are left out, as they depend on
the setting. -/
structure Reports (literal : Nat) (finding : Finding) : Prop where
  span_eq : finding.span = tree.span literal
  fix_eq_ok_iff : (∃ fix, finding.fix = .ok fix) ↔
    ∃ place anchor, tree.parent? literal = some place ∧ anchor? tree place = some anchor ∧
      capturedName? tree literal anchor = none

/-- What a finding says, its names apart: where the literal is, and whether there is a
fix.  It is the part of a finding that the setting for names does not touch. -/
def Finding.verdict (finding : Finding) : Span × Bool := (finding.span, finding.isFixable)

/-! ## Slots and places -/

/-- The child in a field is the first one there. -/
theorem childInField?_eq_some_iff {id child : Nat} {field : Field} :
    tree.childInField? id field = some child ↔
      IsFirstChild tree (tree.field? · = some field) id child := by
  simp [SyntaxTree.childInField?, IsFirstChild, List.find?_eq_some_iff_append]

/-- The literal of a slot is the first child that is no comment, if that is an object
type. -/
theorem literalIn?_eq_some_iff {place literal : Nat} :
    literalIn? tree place = some literal ↔
      tree.kind place = .typeSlot ∧ tree.kind literal = .objectTypeLiteral ∧
        IsFirstChild tree (tree.kind · ≠ .comment) place literal := by
  rw [literalIn?]
  by_cases hkind : tree.kind place = .typeSlot
  · simp [hkind, IsFirstChild, List.find?_eq_some_iff_append, and_comm]
  · simp [hkind]

theorem offendingLiteral?_eq_some_iff {slot : TypeSlot} {literal : Nat} :
    offendingLiteral? tree slot = some literal ↔
      literalIn? tree slot.node = some literal ∧ (tree.span literal).isMultiline = true := by
  rw [offendingLiteral?, Option.filter_eq_some_iff]

theorem typeFieldSlot?_eq_some_iff {owner : Nat} {role : SlotRole} {slot : TypeSlot} :
    typeFieldSlot? tree owner role = some slot ↔
      tree.childInField? owner .type = some slot.node ∧ slot.owner = owner ∧ slot.role = role := by
  rw [typeFieldSlot?, Option.map_eq_some_iff]
  constructor
  · rintro ⟨node, hnode, rfl⟩
    exact ⟨hnode, rfl, rfl⟩
  · rintro ⟨hnode, rfl, rfl⟩
    exact ⟨slot.node, hnode, rfl⟩

/-- The slots of the parameters are the types of the parameters in the list of the
function. -/
theorem mem_parameterSlots_iff {function : Nat} {slot : TypeSlot} :
    slot ∈ parameterSlots tree function ↔
      ∃ parameters, tree.childInField? function .parameters = some parameters ∧
        slot.owner ∈ tree.children parameters ∧ tree.kind slot.owner = .parameter ∧
        tree.childInField? slot.owner .type = some slot.node ∧
        slot.role = parameterRole tree slot.owner := by
  rw [parameterSlots]
  cases tree.childInField? function .parameters with
  | none => simp
  | some parameters =>
      simp only [List.mem_filterMap, List.mem_filter, beq_iff_eq, typeFieldSlot?_eq_some_iff,
        Option.some.injEq, exists_eq_left']
      constructor
      · rintro ⟨parameter, ⟨mem, hkind⟩, hnode, rfl, hrole⟩
        exact ⟨mem, hkind, hnode, hrole⟩
      · rintro ⟨mem, hkind, hnode, hrole⟩
        exact ⟨slot.owner, ⟨mem, hkind⟩, hnode, rfl, hrole⟩

theorem returnSlot?_eq_some_iff {function : Nat} {slot : TypeSlot} :
    returnSlot? tree function = some slot ↔
      tree.childInField? function .returnType = some slot.node ∧ slot.owner = function ∧
        slot.role = .functionReturn := by
  rw [returnSlot?, Option.map_eq_some_iff]
  constructor
  · rintro ⟨node, hnode, rfl⟩
    exact ⟨hnode, rfl, rfl⟩
  · rintro ⟨hnode, rfl, hrole⟩
    exact ⟨slot.node, hnode, by rw [← hrole]⟩

/-- The slots that a node offers, by tests on its kind.  The kinds exclude each other,
so their order does not matter. -/
theorem slotsOf_eq (id : Nat) :
    slotsOf tree id =
      if tree.kind id = .variableBinding then (typeFieldSlot? tree id .variableBinding).toList
      else if tree.kind id = .classProperty then (typeFieldSlot? tree id .classProperty).toList
      else if (tree.kind id).isFunctionLike then
        parameterSlots tree id ++ (returnSlot? tree id).toList
      else [] := by
  unfold slotsOf
  cases tree.kind id <;> rfl

/-- **The slots that a node offers**: its own type, or for a function the types of its
parameters and its return type.  It is the last time that the visitor is opened; below,
slots are known by this. -/
theorem mem_slotsOf_iff {id : Nat} {slot : TypeSlot} :
    slot ∈ slotsOf tree id ↔
      (tree.kind id = .variableBinding ∧ tree.childInField? id .type = some slot.node ∧
        slot.owner = id ∧ slot.role = .variableBinding) ∨
      (tree.kind id = .classProperty ∧ tree.childInField? id .type = some slot.node ∧
        slot.owner = id ∧ slot.role = .classProperty) ∨
      ((tree.kind id).isFunctionLike = true ∧ slot ∈ parameterSlots tree id) ∨
      ((tree.kind id).isFunctionLike = true ∧
        tree.childInField? id .returnType = some slot.node ∧ slot.owner = id ∧
        slot.role = .functionReturn) := by
  rw [← typeFieldSlot?_eq_some_iff, ← typeFieldSlot?_eq_some_iff, ← returnSlot?_eq_some_iff]
  unfold slotsOf
  cases tree.kind id <;> simp [NodeKind.isFunctionLike]

/-- A node with a kind of its own is a node of the tree.  So conditions on kinds need no
bounds of their own. -/
theorem lt_size_of_kind {id : Nat} (h : tree.kind id ≠ .other) : id < tree.size := by
  refine Nat.lt_of_not_le fun ge => h ?_
  have hnone : tree.nodes[id]? = none := Array.getElem?_eq_none ge
  rw [SyntaxTree.kind, hnone]
  rfl

theorem mem_allSlots_iff {slot : TypeSlot} :
    slot ∈ allSlots tree ↔ ∃ id, slot ∈ slotsOf tree id := by
  rw [allSlots, List.mem_flatMap]
  refine exists_congr fun id => and_iff_right_of_imp fun mem => ?_
  -- past the end of the tree every kind is `other`, which offers nothing
  refine List.mem_range.mpr (lt_size_of_kind tree fun hother => ?_)
  simp [mem_slotsOf_iff, hother, NodeKind.isFunctionLike] at mem

/-- **The slots that the walk meets are the places for a type.**  The walk meets all
nodes, so this is a matter of single nodes. -/
theorem exists_slot_iff {place : Nat} :
    (∃ slot ∈ allSlots tree, slot.node = place) ↔ IsTypePlace tree place := by
  simp only [mem_allSlots_iff, mem_slotsOf_iff, mem_parameterSlots_iff, childInField?_eq_some_iff]
  constructor
  · rintro ⟨slot, ⟨id, h⟩, rfl⟩
    rcases h with ⟨hkind, first, _⟩ | ⟨hkind, first, _⟩ |
      ⟨hkind, parameters, list, mem, howner, first, _⟩ | ⟨hkind, first, _⟩
    · exact .variableBinding hkind first
    · exact .classProperty hkind first
    · exact .parameter hkind list mem howner first
    · exact .returnType hkind first
  · intro h
    cases h with
    | @variableBinding owner _ kind first =>
        exact ⟨⟨place, owner, .variableBinding⟩, ⟨owner, Or.inl ⟨kind, first, rfl, rfl⟩⟩, rfl⟩
    | @classProperty owner _ kind first =>
        exact ⟨⟨place, owner, .classProperty⟩,
          ⟨owner, Or.inr (Or.inl ⟨kind, first, rfl, rfl⟩)⟩, rfl⟩
    | @parameter function parameters owner _ functionKind list mem kind first =>
        exact ⟨⟨place, owner, parameterRole tree owner⟩, ⟨function, Or.inr (Or.inr (Or.inl
          ⟨functionKind, parameters, list, mem, kind, first, rfl⟩))⟩, rfl⟩
    | @returnType function _ functionKind first =>
        exact ⟨⟨place, function, .functionReturn⟩, ⟨function, Or.inr (Or.inr (Or.inr
          ⟨functionKind, first, rfl, rfl⟩))⟩, rfl⟩

/-! ## No slot is met twice -/

theorem pairwise_toList (slot? : Option TypeSlot) :
    slot?.toList.Pairwise fun a b => a.owner ≠ b.owner := by
  cases slot? <;> simp

section Uniqueness

variable {tree : SyntaxTree} (linked : Linked tree.nodes)
include linked

theorem parent?_of_childInField? {id child : Nat} {field : Field}
    (h : tree.childInField? id field = some child) : tree.parent? child = some id :=
  (SyntaxTree.mem_children_iff linked).mp (List.mem_of_find?_eq_some h)

/-- Who offers a slot: its owner, or the grandparent of its owner, which is a parameter.
It goes up from the slot, where there is no choice. -/
theorem owner_of_mem_slotsOf {id : Nat} {slot : TypeSlot} (mem : slot ∈ slotsOf tree id) :
    (tree.kind slot.owner ≠ .parameter ∧ slot.owner = id) ∨
      (tree.kind slot.owner = .parameter ∧
        ∃ parameters, tree.parent? slot.owner = some parameters ∧
          tree.parent? parameters = some id) := by
  rcases (mem_slotsOf_iff tree).mp mem with ⟨hkind, _, rfl, _⟩ | ⟨hkind, _, rfl, _⟩ |
    ⟨hkind, hslot⟩ | ⟨hkind, _, rfl, _⟩
  · exact Or.inl ⟨by rw [hkind]; decide, rfl⟩
  · exact Or.inl ⟨by rw [hkind]; decide, rfl⟩
  · obtain ⟨parameters, list, mem, howner, _⟩ := (mem_parameterSlots_iff tree).mp hslot
    exact Or.inr ⟨howner, parameters, (SyntaxTree.mem_children_iff linked).mp mem,
      parent?_of_childInField? linked list⟩
  · refine Or.inl ⟨fun hparameter => ?_, rfl⟩
    rw [hparameter] at hkind
    exact absurd hkind (by decide)

/-- **The owner determines who offers the slot.**  In a tree without links in both
directions, two functions could share a parameter. -/
theorem eq_of_owner_eq {id id' : Nat} {slot slot' : TypeSlot} (mem : slot ∈ slotsOf tree id)
    (mem' : slot' ∈ slotsOf tree id') (h : slot.owner = slot'.owner) : id = id' := by
  have here := owner_of_mem_slotsOf linked mem
  have there := owner_of_mem_slotsOf linked mem'
  rw [← h] at there
  -- the kind of the common owner says which of the two ways applies, to both slots alike
  rcases here with ⟨hkind, rfl⟩ | ⟨hkind, parameters, hp, hid⟩
  · rcases there with ⟨_, rfl⟩ | ⟨hkind', _⟩
    · rfl
    · exact absurd hkind' hkind
  · rcases there with ⟨hkind', _⟩ | ⟨_, parameters', hp', hid'⟩
    · exact absurd hkind hkind'
    · rw [hp, Option.some.injEq] at hp'
      subst hp'
      rw [hid, Option.some.injEq] at hid'
      exact hid'

theorem parent?_node_of_mem_slotsOf {id : Nat} {slot : TypeSlot} (mem : slot ∈ slotsOf tree id) :
    tree.parent? slot.node = some slot.owner := by
  rcases (mem_slotsOf_iff tree).mp mem with ⟨_, hnode, rfl, _⟩ | ⟨_, hnode, rfl, _⟩ |
    ⟨_, hslot⟩ | ⟨_, hnode, rfl, _⟩
  · exact parent?_of_childInField? linked hnode
  · exact parent?_of_childInField? linked hnode
  · obtain ⟨_, _, _, _, hnode, _⟩ := (mem_parameterSlots_iff tree).mp hslot
    exact parent?_of_childInField? linked hnode
  · exact parent?_of_childInField? linked hnode

theorem pairwise_parameterSlots (function : Nat) :
    (parameterSlots tree function).Pairwise fun a b => a.owner ≠ b.owner := by
  rw [parameterSlots]
  cases tree.childInField? function .parameters with
  | none => exact .nil
  | some parameters =>
      dsimp only
      rw [List.pairwise_filterMap]
      refine ((SyntaxTree.children_nodup linked parameters).filter _).imp ?_
      intro first second hne slot hslot slot' hslot'
      rw [typeFieldSlot?_eq_some_iff] at hslot hslot'
      rw [hslot.2.1, hslot'.2.1]
      exact hne

/-- The slots of one node have different owners.  For a function the parameters are
different nodes, and none of them is the function. -/
theorem pairwise_slotsOf (id : Nat) :
    (slotsOf tree id).Pairwise fun a b => a.owner ≠ b.owner := by
  rw [slotsOf_eq]
  split
  · exact pairwise_toList _
  · split
    · exact pairwise_toList _
    · split
      · rename_i hkind
        rw [List.pairwise_append]
        refine ⟨pairwise_parameterSlots linked id, pairwise_toList _, ?_⟩
        -- the owners are parameters on the left and the function itself on the right
        intro slot mem slot' mem' heq
        obtain ⟨_, _, _, hparameter, _⟩ := (mem_parameterSlots_iff tree).mp mem
        obtain ⟨_, howner, _⟩ := (returnSlot?_eq_some_iff tree).mp (Option.mem_toList.mp mem')
        rw [← howner, ← heq, hparameter] at hkind
        exact absurd hkind (by decide)
      · exact .nil

/-- **No two slots of a linked tree have the same owner.**  Different nodes offer slots
of different owners, by `eq_of_owner_eq`. -/
theorem pairwise_allSlots : (allSlots tree).Pairwise fun a b => a.owner ≠ b.owner := by
  rw [allSlots, List.pairwise_flatMap]
  refine ⟨fun id _ => pairwise_slotsOf linked id, List.nodup_range.imp ?_⟩
  intro id id' hne slot mem slot' mem' howner
  exact hne (eq_of_owner_eq linked mem mem' howner)

end Uniqueness

/-! ## Findings -/

/-- The slots of a list with a literal that the rule objects to, each with its literal.
It is the list that findings are compared with, one by one. -/
def offences (slots : List TypeSlot) : List (TypeSlot × Nat) :=
  slots.filterMap fun slot => (offendingLiteral? tree slot).map fun literal => (slot, literal)

theorem mem_offences_iff {slots : List TypeSlot} {slot : TypeSlot} {literal : Nat} :
    (slot, literal) ∈ offences tree slots ↔
      slot ∈ slots ∧ offendingLiteral? tree slot = some literal := by
  simp [offences]

/-- **The findings for a list of slots, one by one**: each is the report of its literal,
under the names taken by then.  Which names are taken is left open, since nothing below
depends on it. -/
theorem forall₂_findingsFor (names : NameScope) (slots : List TypeSlot) :
    List.Forall₂
      (fun offence finding => offendingLiteral? tree offence.1 = some offence.2 ∧
        ∃ names, finding = (reportLiteral tree names offence.1 offence.2).1)
      (offences tree slots) (findingsFor tree names slots) := by
  induction slots generalizing names with
  | nil => exact .nil
  | cons slot rest ih =>
      rw [findingsFor]
      cases hliteral : offendingLiteral? tree slot with
      | none => simpa [offences, hliteral] using ih names
      | some literal =>
          simp only [offences, List.filterMap_cons, hliteral, Option.map_some]
          exact .cons ⟨hliteral, names, rfl⟩ (ih _)

/-- Every finding is the report of a literal in one of the slots. -/
theorem exists_offence_of_mem_findingsFor {names : NameScope} {slots : List TypeSlot}
    {finding : Finding} (mem : finding ∈ findingsFor tree names slots) :
    ∃ slot literal names, (slot, literal) ∈ offences tree slots ∧
      finding = (reportLiteral tree names slot literal).1 := by
  have oneByOne := forall₂_findingsFor tree names slots
  obtain ⟨⟨i, lt⟩, rfl⟩ := List.mem_iff_get.mp mem
  obtain ⟨_, names', heq⟩ := oneByOne.get (oneByOne.length_eq ▸ lt) lt
  exact ⟨_, _, names', List.get_mem _ _, heq⟩

theorem hoistAnchor_eq_ok_iff {place literal anchor : Nat} :
    hoistAnchor tree place literal = .ok anchor ↔
      anchor? tree place = some anchor ∧ capturedName? tree literal anchor = none := by
  rw [hoistAnchor]
  cases anchor? tree place with
  | none => simp
  | some found =>
      dsimp only
      cases hname : capturedName? tree literal found with
      | none =>
          simp only [Except.ok.injEq, Option.some.injEq]
          exact ⟨fun h => ⟨h, h ▸ hname⟩, fun h => h.1⟩
      | some name =>
          simp only [reduceCtorEq, Option.some.injEq, false_iff, not_and]
          rintro rfl
          rw [hname]
          simp

theorem reportLiteral_span (names : NameScope) (slot : TypeSlot) (literal : Nat) :
    (reportLiteral tree names slot literal).1.span = tree.span literal := by
  rw [reportLiteral]
  split <;> rfl

/-- A report has a fix exactly when there is an anchor, and then it hoists the literal
there.  The name of the alias plays no part in whether there is one. -/
theorem reportLiteral_fix_eq_ok_iff {names : NameScope} {slot : TypeSlot} {literal : Nat}
    {fix : Fix} :
    (reportLiteral tree names slot literal).1.fix = .ok fix ↔
      ∃ anchor, hoistAnchor tree slot.node literal = .ok anchor ∧
        fix = hoistFix tree literal (names.claim (deriveName tree slot)).1 anchor := by
  rw [reportLiteral]
  cases hoistAnchor tree slot.node literal with
  | ok anchor => simp [eq_comm]
  | error reason => simp

theorem reports_reportLiteral {slot : TypeSlot} {literal : Nat}
    (parent : tree.parent? literal = some slot.node) (names : NameScope) :
    Reports tree literal (reportLiteral tree names slot literal).1 where
  span_eq := reportLiteral_span tree names slot literal
  fix_eq_ok_iff := by
    simp only [reportLiteral_fix_eq_ok_iff, hoistAnchor_eq_ok_iff, parent, Option.some.injEq]
    constructor
    · rintro ⟨_, anchor, h, _⟩
      exact ⟨slot.node, anchor, rfl, h⟩
    · rintro ⟨_, anchor, rfl, h⟩
      exact ⟨_, anchor, h, rfl⟩

/-- The literals that the rule objects to, in the order of the walk. -/
def offendingLiterals : List Nat := (offences tree (allSlots tree)).map (·.2)

theorem mem_offendingLiterals_iff {literal : Nat} :
    literal ∈ offendingLiterals tree ↔ Offends tree literal := by
  have walk : literal ∈ offendingLiterals tree ↔
      ∃ slot ∈ allSlots tree, offendingLiteral? tree slot = some literal := by
    simp only [offendingLiterals, List.mem_map, Prod.exists, mem_offences_iff]
    exact ⟨fun ⟨slot, _, h, heq⟩ => ⟨slot, h.1, heq ▸ h.2⟩,
      fun ⟨slot, mem, h⟩ => ⟨slot, literal, ⟨mem, h⟩, rfl⟩⟩
  rw [walk]
  simp only [offendingLiteral?_eq_some_iff, literalIn?_eq_some_iff]
  constructor
  · rintro ⟨slot, mem, ⟨hplace, hkind, first⟩, lines⟩
    exact ⟨hkind, lines, slot.node, hplace, (exists_slot_iff tree).mp ⟨slot, mem, rfl⟩, first⟩
  · rintro ⟨hkind, lines, place, hplace, isPlace, first⟩
    obtain ⟨slot, mem, rfl⟩ := (exists_slot_iff tree).mpr isPlace
    exact ⟨slot, mem, ⟨hplace, hkind, first⟩, lines⟩

section Linked

variable {tree}
variable (linked : Linked tree.nodes)
include linked

theorem parent?_of_offendingLiteral? {slot : TypeSlot} {literal : Nat}
    (h : offendingLiteral? tree slot = some literal) : tree.parent? literal = some slot.node := by
  obtain ⟨hliteral, _⟩ := (offendingLiteral?_eq_some_iff tree).mp h
  obtain ⟨_, _, _, before, after, hchildren, _⟩ := (literalIn?_eq_some_iff tree).mp hliteral
  refine (SyntaxTree.mem_children_iff linked).mp ?_
  rw [hchildren]
  simp

/-- **No literal is met twice**: it hangs two levels below the owner of its slot.
Distinct owners give distinct slots, and a literal has one parent. -/
theorem nodup_offendingLiterals : (offendingLiterals tree).Nodup := by
  rw [offendingLiterals, List.Nodup, List.pairwise_map, offences, List.pairwise_filterMap]
  refine (pairwise_allSlots linked).imp_of_mem ?_
  intro slot slot' mem mem' howner offence hoffence offence' hoffence' heq
  obtain ⟨literal, hliteral, rfl⟩ := Option.map_eq_some_iff.mp hoffence
  obtain ⟨literal', hliteral', rfl⟩ := Option.map_eq_some_iff.mp hoffence'
  obtain ⟨id, mem⟩ := (mem_allSlots_iff tree).mp mem
  obtain ⟨id', mem'⟩ := (mem_allSlots_iff tree).mp mem'
  have hnode := parent?_of_offendingLiteral? linked hliteral
  have hnode' := parent?_of_offendingLiteral? linked hliteral'
  obtain rfl : literal = literal' := heq
  -- one literal has one parent, and that slot has one owner
  have same : slot.node = slot'.node := Option.some.inj (hnode.symm.trans hnode')
  have hparent := parent?_node_of_mem_slotsOf linked mem
  rw [same, parent?_node_of_mem_slotsOf linked mem'] at hparent
  exact howner (Option.some.inj hparent).symm

/-- The findings are, one by one, the reports of the offending literals.  The list of
literals does not depend on the setting for names, which is half of the main statement.
-/
theorem forall₂_lint (disambiguate : Bool) :
    List.Forall₂ (Reports tree) (offendingLiterals tree) (lint tree disambiguate) := by
  rw [offendingLiterals, List.forall₂_map_left_iff, lint]
  refine (forall₂_findingsFor tree _ _).imp ?_
  rintro ⟨slot, literal⟩ _ ⟨hliteral, names, rfl⟩
  exact reports_reportLiteral tree (parent?_of_offendingLiteral? linked hliteral) names

end Linked

/-! ## The main statement -/

theorem Finding.fix?_eq_some_iff {finding : Finding} {fix : Fix} :
    finding.fix? = some fix ↔ finding.fix = .ok fix := by
  rw [fix?]
  cases finding.fix with
  | ok found => simp [Except.toOption]
  | error reason => simp [Except.toOption]

theorem Finding.isFixable_iff {finding : Finding} :
    finding.isFixable = true ↔ ∃ fix, finding.fix = .ok fix := by
  simp only [isFixable, Option.isSome_iff_exists, fix?_eq_some_iff]

variable {tree} in
/-- Two findings that report the same literal agree on its span and on its fixability.
So verdicts under both settings agree without being compared. -/
theorem Reports.verdict_eq {literal : Nat} {finding finding' : Finding}
    (h : Reports tree literal finding) (h' : Reports tree literal finding') :
    finding.verdict = finding'.verdict := by
  have hspan : finding.span = finding'.span := h.span_eq.trans h'.span_eq.symm
  have hfix : finding.isFixable = finding'.isFixable := by
    rw [Bool.eq_iff_iff, Finding.isFixable_iff, Finding.isFixable_iff, h.fix_eq_ok_iff,
      h'.fix_eq_ok_iff]
  rw [Finding.verdict, Finding.verdict, hspan, hfix]

variable {tree} in
theorem map_verdict_eq {literals : List Nat} {findings findings' : List Finding}
    (h : List.Forall₂ (Reports tree) literals findings)
    (h' : List.Forall₂ (Reports tree) literals findings') :
    findings.map Finding.verdict = findings'.map Finding.verdict := by
  induction h generalizing findings' with
  | nil =>
      cases h'
      rfl
  | cons here _ ih =>
      cases h' with
      | cons here' rest' => rw [List.map_cons, List.map_cons, here.verdict_eq here', ih rest']

/-- **Detection is sound, complete and free of duplicates.**  The findings of a lowered tree are,
one by one, the reports of the literals that offend, each listed once; and whether names are
disambiguated changes neither the list nor what is said about it. -/
theorem lint_reports_offending_once (source : String) (raw : RawTree) (hasErrors : Bool) :
    ∃ literals : List Nat, literals.Nodup ∧
      (∀ literal, literal ∈ literals ↔ Offends (.ofRaw source raw hasErrors) literal) ∧
      (∀ disambiguate, List.Forall₂ (Reports (.ofRaw source raw hasErrors)) literals
        (lint (.ofRaw source raw hasErrors) disambiguate)) ∧
      (lint (.ofRaw source raw hasErrors) true).map Finding.verdict =
        (lint (.ofRaw source raw hasErrors) false).map Finding.verdict := by
  have linked := linked_ofRaw source raw hasErrors
  refine ⟨offendingLiterals _, nodup_offendingLiterals linked,
    fun literal => mem_offendingLiterals_iff _, forall₂_lint linked, ?_⟩
  exact map_verdict_eq (forall₂_lint linked true) (forall₂_lint linked false)

end AliasHoist
