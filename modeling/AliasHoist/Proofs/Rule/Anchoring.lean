import AliasHoist.Proofs.Rule.Hoisting

/-!
# Where anchors are found

The search for an anchor goes up from a node to the program and stops at the first node that gives one.
This module says which node that is and which anchor it gives, without the two walks: the one to that
node, and the one over the wrappers around it.

## Main Definitions

* `IsSite`: a node that gives an anchor;
* `NearestSite`: the first site on the way up from a node;
* `TopWrapper`: the topmost of an unbroken run of wrappers;
* `AnchorOf`: the anchor that a site gives.

## Main Statements

* `topWrapper_outermostWrapper`: the walk over wrappers ends at the topmost one;
* `anchorAt?_eq_some_iff`: a node gives an anchor exactly when it is a site;
* `anchor?_eq_some_iff`: the anchor of a node is that of its nearest site;
* `anchor_of_nearest_site`: when there is an anchor, which one, and where it stands.
-/

namespace AliasHoist

variable (tree : SyntaxTree)

/-! ## Sites -/

/-- A place for statements: a file, a block, or a wrapper.  Wrappers count because
`export` and `declare` stand around the statement that they modify. -/
def HoldsStatements (id : Nat) : Prop :=
  tree.kind id = .program ∨ tree.kind id = .block ∨ (tree.kind id).isWrapper = true

/-- **A node that gives an anchor**: a wrapper of a declaration, or a declaration in a
place for statements.  Only the node itself, its children and its parent are looked at.
-/
inductive IsSite (id : Nat) : Prop where
  | wrapper {child : Nat} (wraps : (tree.kind id).isWrapper = true)
      (mem : child ∈ tree.children id) (target : (tree.kind child).isHoistTarget = true)
  | declaration {parent : Nat} (target : (tree.kind id).isHoistTarget = true)
      (hp : tree.parent? id = some parent) (place : HoldsStatements tree parent)

/-- **The first site on the way up from a node.**  The way ends below the program.
Nodes that are no sites are passed over, however many there are. -/
inductive NearestSite : Nat → Nat → Prop where
  | here {id : Nat} (site : IsSite tree id) : NearestSite id id
  | above {id parent site : Nat} (below : tree.kind id ≠ .program) (other : ¬ IsSite tree id)
      (hp : tree.parent? id = some parent) (further : NearestSite parent site) :
      NearestSite id site

/-- **The topmost of the unbroken run of wrappers** that starts at a node.  Wrappers can
be nested, as in `export declare`, and an alias must not come between them. -/
inductive TopWrapper : Nat → Nat → Prop where
  | here {id : Nat} (wraps : (tree.kind id).isWrapper = true)
      (last : ∀ parent, tree.parent? id = some parent → (tree.kind parent).isWrapper = false) :
      TopWrapper id id
  | above {id parent top : Nat} (wraps : (tree.kind id).isWrapper = true)
      (hp : tree.parent? id = some parent) (further : TopWrapper parent top) : TopWrapper id top

/-- **The anchor that a site gives**: the topmost of the wrappers that start at it or
right around it, or else itself.  The three cases exclude each other: a declaration is
no wrapper, and its parent is one or is a place for statements. -/
inductive AnchorOf (site : Nat) : Nat → Prop where
  | wrapper {top : Nat} (run : TopWrapper tree site top) : AnchorOf site top
  | wrapped {parent top : Nat} (target : (tree.kind site).isHoistTarget = true)
      (hp : tree.parent? site = some parent) (run : TopWrapper tree parent top) :
      AnchorOf site top
  | own {parent : Nat} (target : (tree.kind site).isHoistTarget = true)
      (hp : tree.parent? site = some parent)
      (place : tree.kind parent = .program ∨ tree.kind parent = .block) : AnchorOf site site

variable {tree} {id site anchor top : Nat}

/-- A declaration is no wrapper.  Hence the kinds of anchors can be told apart by this
one test. -/
theorem NodeKind.isWrapper_eq_false {kind : NodeKind} (target : kind.isHoistTarget = true) :
    kind.isWrapper = false := by
  cases kind <;> simp_all [isWrapper, isHoistTarget]

theorem not_isWrapper_of_place (place : tree.kind id = .program ∨ tree.kind id = .block) :
    (tree.kind id).isWrapper = false := by
  rcases place with program | block
  · rw [program]; rfl
  · rw [block]; rfl

/-- The program is no site.  So nothing is lost by ending the way up there. -/
theorem IsSite.kind_ne_program (h : IsSite tree id) : tree.kind id ≠ .program := by
  intro program
  cases h with
  | wrapper wraps => simp [program, NodeKind.isWrapper] at wraps
  | declaration target => simp [program, NodeKind.isHoistTarget] at target

/-! ## Runs of wrappers -/

theorem TopWrapper.isWrapper (h : TopWrapper tree id top) : (tree.kind id).isWrapper = true := by
  cases h with
  | here wraps => exact wraps
  | above wraps => exact wraps

theorem TopWrapper.isWrapper_top (h : TopWrapper tree id top) :
    (tree.kind top).isWrapper = true := by
  induction h with
  | here wraps => exact wraps
  | above _ _ _ ih => exact ih

/-- There is no wrapper around the topmost one.  It is what makes the topmost wrapper
unique. -/
theorem TopWrapper.last (h : TopWrapper tree id top) {parent : Nat}
    (hp : tree.parent? top = some parent) : (tree.kind parent).isWrapper = false := by
  induction h with
  | here _ last => exact last parent hp
  | above _ _ _ ih => exact ih hp

/-- There is one topmost wrapper of a run. -/
theorem TopWrapper.unique {other : Nat} (h : TopWrapper tree id top)
    (h' : TopWrapper tree id other) : top = other := by
  induction h with
  | here wraps last =>
      cases h' with
      | here => rfl
      | above _ hp further => exact absurd further.isWrapper (by simp [last _ hp])
  | above wraps hp further ih =>
      cases h' with
      | here _ last => exact absurd further.isWrapper (by simp [last _ hp])
      | above _ hp' further' =>
          obtain rfl := Option.some.inj (hp.symm.trans hp')
          exact ih further'

theorem outermostWrapper_of_top
    (last : ∀ parent, tree.parent? id = some parent → (tree.kind parent).isWrapper = false) :
    outermostWrapper tree id = id := by
  rw [outermostWrapper]
  cases hp : tree.parent? id with
  | none => rw [tree.ancestors_of_none hp]; rfl
  | some parent =>
      rw [tree.ancestors_of_some hp, List.takeWhile_cons_of_neg (by simp [last parent hp])]
      rfl

theorem outermostWrapper_of_wrapped {parent : Nat} (hp : tree.parent? id = some parent)
    (wraps : (tree.kind parent).isWrapper = true) :
    outermostWrapper tree id = outermostWrapper tree parent := by
  have run : (tree.ancestors id).takeWhile (fun above => (tree.kind above).isWrapper) =
      parent :: (tree.ancestors parent).takeWhile fun above => (tree.kind above).isWrapper := by
    rw [tree.ancestors_of_some hp]
    exact List.takeWhile_cons_of_pos wraps
  rw [outermostWrapper, run, List.getLast?_cons, Option.getD_some, outermostWrapper]

/-- **The walk over wrappers ends at the topmost one.**  An induction on the node, since
parents have smaller numbers. -/
theorem topWrapper_outermostWrapper (wraps : (tree.kind id).isWrapper = true) :
    TopWrapper tree id (outermostWrapper tree id) := by
  induction id using Nat.strongRecOn with
  | _ id ih =>
      by_cases last : ∀ parent, tree.parent? id = some parent →
          (tree.kind parent).isWrapper = false
      · rw [outermostWrapper_of_top last]
        exact .here wraps last
      · push Not at last
        obtain ⟨parent, hp, around⟩ := last
        have around : (tree.kind parent).isWrapper = true := by simpa using around
        rw [outermostWrapper_of_wrapped hp around]
        exact .above wraps hp (ih parent (tree.parent_lt hp) around)

/-! ## What a site gives -/

theorem wrapsTarget_iff :
    wrapsTarget tree id = true ↔
      ∃ child ∈ tree.children id, (tree.kind child).isHoistTarget = true := by
  rw [wrapsTarget, List.any_eq_true]

/-- Every site gives an anchor.  The search therefore never passes a site. -/
theorem IsSite.exists_anchorOf (h : IsSite tree site) : ∃ anchor, AnchorOf tree site anchor := by
  cases h with
  | wrapper wraps => exact ⟨_, .wrapper (topWrapper_outermostWrapper wraps)⟩
  | declaration target hp place =>
      rcases place with program | block | around
      · exact ⟨site, .own target hp (.inl program)⟩
      · exact ⟨site, .own target hp (.inr block)⟩
      · exact ⟨_, .wrapped target hp (topWrapper_outermostWrapper around)⟩

/-- **A node gives an anchor exactly when it is a site.**  It is where the program's
tests on kinds are opened, and the only place. -/
theorem anchorAt?_eq_some_iff :
    anchorAt? tree id = some anchor ↔ IsSite tree id ∧ AnchorOf tree id anchor := by
  constructor
  · intro found
    rw [anchorAt?] at found
    split at found
    · rename_i wraps
      obtain ⟨wraps, holds⟩ := Bool.and_eq_true_iff.mp wraps
      obtain ⟨child, mem, target⟩ := wrapsTarget_iff.mp holds
      obtain rfl := Option.some.inj found
      exact ⟨.wrapper wraps mem target, .wrapper (topWrapper_outermostWrapper wraps)⟩
    · split at found
      · rename_i target
        cases hp : tree.parent? id with
        | none => simp [hp] at found
        | some parent =>
            simp only [hp] at found
            split at found
            · rename_i around
              obtain rfl := Option.some.inj found
              exact ⟨.declaration target hp (.inr (.inr around)),
                .wrapped target hp (topWrapper_outermostWrapper around)⟩
            · split at found
              · rename_i place
                rw [Bool.or_eq_true, beq_iff_eq, beq_iff_eq] at place
                obtain rfl := Option.some.inj found
                refine ⟨.declaration target hp ?_, .own target hp place⟩
                exact place.imp_right .inl
              · simp at found
      · simp at found
  · rintro ⟨site, gives⟩
    cases gives with
    | wrapper run =>
        cases site with
        | wrapper wraps mem target =>
            have holds := wrapsTarget_iff.mpr ⟨_, mem, target⟩
            rw [anchorAt?, wraps, holds, (topWrapper_outermostWrapper wraps).unique run]
            rfl
        | declaration target =>
            exact absurd run.isWrapper (by simp [NodeKind.isWrapper_eq_false target])
    | wrapped target hp run =>
        have declared := NodeKind.isWrapper_eq_false target
        have around := run.isWrapper
        simp [anchorAt?, declared, target, hp, around,
          (topWrapper_outermostWrapper around).unique run]
    | own target hp place =>
        have declared := NodeKind.isWrapper_eq_false target
        have inside := not_isWrapper_of_place place
        simp only [anchorAt?, declared, target, hp, inside]
        simp [place]

/-- A node that is no site gives none. -/
theorem anchorAt?_eq_none_iff : anchorAt? tree id = none ↔ ¬ IsSite tree id := by
  constructor
  · intro nothing site
    obtain ⟨anchor, gives⟩ := site.exists_anchorOf
    simp [anchorAt?_eq_some_iff.mpr ⟨site, gives⟩] at nothing
  · intro other
    rw [Option.eq_none_iff_forall_ne_some]
    intro anchor found
    exact other (anchorAt?_eq_some_iff.mp found).1

namespace AnchorOf

/-- An anchor is never right in a wrapper.  An alias that is put in front of it
therefore does not end up between `export` and what is exported. -/
theorem not_wrapped (h : AnchorOf tree site anchor) {parent : Nat}
    (hp : tree.parent? anchor = some parent) : (tree.kind parent).isWrapper = false := by
  cases h with
  | wrapper run => exact run.last hp
  | wrapped _ _ run => exact run.last hp
  | own _ hp' place =>
      obtain rfl := Option.some.inj (hp'.symm.trans hp)
      exact not_isWrapper_of_place place

/-- An anchor that is no wrapper is a statement of a file or of a block.  There an alias
may stand. -/
theorem exists_place (h : AnchorOf tree site anchor)
    (declared : (tree.kind anchor).isWrapper = false) :
    ∃ parent, tree.parent? anchor = some parent ∧
      (tree.kind parent = .program ∨ tree.kind parent = .block) := by
  cases h with
  | wrapper run => simp [run.isWrapper_top] at declared
  | wrapped _ _ run => simp [run.isWrapper_top] at declared
  | own _ hp place => exact ⟨_, hp, place⟩

end AnchorOf

/-! ## The way up -/

/-- One step of the search.  The walk is written with a bound on its steps; this
equation has none. -/
theorem anchor?_eq (tree : SyntaxTree) (id : Nat) :
    anchor? tree id =
      if tree.kind id = .program then none
      else (anchorAt? tree id).or ((tree.parent? id).bind (anchor? tree)) := by
  rw [anchor?, wayToProgram]
  by_cases program : tree.kind id = .program
  · rw [List.takeWhile_cons_of_neg (by simp [program]), if_pos program, List.findSome?_nil]
  · rw [List.takeWhile_cons_of_pos (by simp [program]), if_neg program, List.findSome?_cons]
    cases hp : tree.parent? id with
    | none =>
        rw [tree.ancestors_of_none hp]
        cases anchorAt? tree id <;> rfl
    | some parent =>
        rw [tree.ancestors_of_some hp]
        cases anchorAt? tree id <;> rfl

/-- **The anchor of a node is that of its nearest site.**  The walk follows the
inductive definition step by step, so the proof is an induction along the ancestors one
way and along `NearestSite` the other. -/
theorem anchor?_eq_some_iff :
    anchor? tree id = some anchor ↔
      ∃ site, NearestSite tree id site ∧ AnchorOf tree site anchor := by
  induction id using Nat.strongRecOn with
  | _ id ih =>
      rw [anchor?_eq]
      constructor
      · intro found
        split at found
        · simp at found
        · rename_i below
          rcases Option.or_eq_some_iff.mp found with here | ⟨nothing, further⟩
          · obtain ⟨site, gives⟩ := anchorAt?_eq_some_iff.mp here
            exact ⟨id, .here site, gives⟩
          · obtain ⟨parent, hp, further⟩ := Option.bind_eq_some_iff.mp further
            obtain ⟨site, nearest, gives⟩ := (ih parent (tree.parent_lt hp)).mp further
            exact ⟨site, .above below (anchorAt?_eq_none_iff.mp nothing) hp nearest, gives⟩
      · rintro ⟨site, nearest, gives⟩
        cases nearest with
        | here site =>
            rw [if_neg site.kind_ne_program, anchorAt?_eq_some_iff.mpr ⟨site, gives⟩]
            rfl
        | above below other hp nearest =>
            have further := (ih _ (tree.parent_lt hp)).mpr ⟨site, nearest, gives⟩
            rw [if_neg below, anchorAt?_eq_none_iff.mpr other, hp]
            exact further

theorem NearestSite.isSite (h : NearestSite tree id site) : IsSite tree site := by
  induction h with
  | here site => exact site
  | above _ _ _ _ ih => exact ih

/-- **Anchors are those of the nearest sites.**  A node has no anchor exactly when there is no site on
its way up to the program.  Otherwise the anchor is what the nearest site gives: the topmost of the
wrappers that start at it or right around it, or else itself.  The anchor is the node or stands above it,
is never right in a wrapper, and is a statement of a file or of a block if it is no wrapper.  Every way up
ends. -/
theorem anchor_of_nearest_site (tree : SyntaxTree) (id : Nat) :
    (anchor? tree id = none ↔ ∀ site, ¬ NearestSite tree id site) ∧
      (∀ anchor, anchor? tree id = some anchor ↔
        ∃ site, NearestSite tree id site ∧ AnchorOf tree site anchor) ∧
      (∀ anchor, anchor? tree id = some anchor →
        anchor ∈ id :: tree.ancestors id ∧
        (∀ parent, tree.parent? anchor = some parent → (tree.kind parent).isWrapper = false) ∧
        ((tree.kind anchor).isWrapper = false →
          ∃ parent, tree.parent? anchor = some parent ∧
            (tree.kind parent = .program ∨ tree.kind parent = .block))) ∧
      ∀ node, (tree.ancestors node).length ≤ node := by
  refine ⟨?_, fun anchor => anchor?_eq_some_iff, fun anchor found => ?_, tree.length_ancestors_le⟩
  · rw [Option.eq_none_iff_forall_ne_some]
    constructor
    · intro nothing site nearest
      obtain ⟨anchor, gives⟩ := nearest.isSite.exists_anchorOf
      exact nothing anchor (anchor?_eq_some_iff.mpr ⟨site, nearest, gives⟩)
    · intro none anchor found
      obtain ⟨site, nearest, -⟩ := anchor?_eq_some_iff.mp found
      exact none site nearest
  · obtain ⟨site, nearest, gives⟩ := anchor?_eq_some_iff.mp found
    exact ⟨mem_of_anchor? found, fun parent => gives.not_wrapped, gives.exists_place⟩

end AliasHoist
