import AliasHoist.Proofs.Rewrite.Application
import AliasHoist.Proofs.Rule.Detection

/-!
# The fixes of one round can be applied

The two edits of a fix are read off two nodes, the literal and its anchor.  The anchor stands above
the literal, so it starts no later; and the literal runs over several lines, so it is not empty.
With the spans of the tree nested, that is all it takes for the fixes of a round of linting to be
applicable, and for those of them that are selected to be applied together.

## Main Statements

* `mem_of_anchor?`: an anchor is the node it is found for, or stands above it;
* `applicable_hoistFix`: the fix for a literal with an anchor above it can be applied;
* `exists_applyEdits_lint`: the fixes selected from a round of linting can be applied.
-/

namespace AliasHoist

variable {tree : SyntaxTree}

/-! ## Anchors stand above -/

/-- The walk over wrappers goes up. -/
theorem mem_of_outermostWrapper (wrapper : Nat) :
    outermostWrapper tree wrapper ∈ wrapper :: tree.ancestors wrapper := by
  rw [outermostWrapper]
  cases htop : ((tree.ancestors wrapper).takeWhile fun above =>
      (tree.kind above).isWrapper).getLast? with
  | none => exact List.mem_cons_self
  | some top =>
      refine List.mem_cons_of_mem _ ?_
      exact List.takeWhile_subset _ (List.mem_of_getLast? htop)

/-- The anchor that a node gives is the node or stands above it. -/
theorem mem_of_anchorAt? {id anchor : Nat} (h : anchorAt? tree id = some anchor) :
    anchor ∈ id :: tree.ancestors id := by
  rw [anchorAt?] at h
  split at h
  · rw [← Option.some.inj h]
    exact mem_of_outermostWrapper id
  · split at h
    · cases hp : tree.parent? id with
      | none => simp [hp] at h
      | some parent =>
          simp only [hp] at h
          split at h
          · rw [← Option.some.inj h, tree.ancestors_of_some hp]
            exact List.mem_cons_of_mem _ (mem_of_outermostWrapper parent)
          · split at h
            · rw [← Option.some.inj h]
              exact List.mem_cons_self
            · simp at h
    · simp at h

/-- **An anchor is the node it is found for, or stands above it.**  This is all that the
edits of a fix need to know about anchors. -/
theorem mem_of_anchor? {id anchor : Nat} (h : anchor? tree id = some anchor) :
    anchor ∈ id :: tree.ancestors id := by
  obtain ⟨middle, hmiddle, hanchor⟩ := List.exists_of_findSome?_eq_some h
  exact tree.mem_cons_ancestors_trans (List.takeWhile_subset _ hmiddle) (mem_of_anchorAt? hanchor)

/-! ## Fixes are applicable -/

/-- **The fix for a literal over several lines, with an anchor above it, can be
applied.**  The span of the anchor begins no later than that of the literal, because
spans are nested. -/
theorem applicable_hoistFix (spanned : WellSpanned tree.source.toList tree.nodes)
    {literal anchor : Nat} (lt : literal < tree.size)
    (lines : (tree.span literal).isMultiline = true) (above : anchor ∈ tree.ancestors literal)
    (name : String) : (hoistFix tree literal name anchor).Applicable tree.source.toList := by
  have range := spanned.span_isRange lt
  have anchorRange := spanned.span_isRange (Nat.lt_trans (tree.lt_of_mem_ancestors above) lt)
  have nonempty := spanned.start_lt_stop lt lines
  obtain ⟨before, _⟩ := Span.contains_iff.mp (spanned.contains_of_mem_ancestors above)
  constructor
  · intro edit mem
    rcases List.mem_pair.mp mem with rfl | rfl
    · simp only [Text.isRange, Bool.and_eq_true] at anchorRange
      simp [hoistFix, isRangeOf, Edit.start, Edit.stop, anchorRange.1.2]
    · exact range
  · intro edit mem
    rcases List.mem_pair.mp mem with rfl | rfl
    · rfl
    · simpa [hoistFix, Edit.isProper] using nonempty
  · simp only [hoistFix, Edit.overlaps, Bool.and_eq_false_iff, decide_eq_false_iff_not]
    omega

/-- Every fix of a round of linting can be applied.  That its literal runs over several
lines is the condition under which it was reported. -/
theorem applicable_of_mem_fixesOf (linked : Linked tree.nodes)
    (spanned : WellSpanned tree.source.toList tree.nodes) {disambiguate : Bool} {fix : Fix}
    (mem : fix ∈ fixesOf (lint tree disambiguate)) : fix.Applicable tree.source.toList := by
  obtain ⟨finding, hfinding, hfix⟩ := List.mem_filterMap.mp mem
  obtain ⟨slot, literal, names, offence, rfl⟩ := exists_offence_of_mem_findingsFor tree hfinding
  have hliteral := ((mem_offences_iff tree).mp offence).2
  obtain ⟨anchor, hanchor, rfl⟩ :=
    (reportLiteral_fix_eq_ok_iff tree).mp (Finding.fix?_eq_some_iff.mp hfix)
  obtain ⟨hanchor, _⟩ := (hoistAnchor_eq_ok_iff tree).mp hanchor
  obtain ⟨hslot, lines⟩ := (offendingLiteral?_eq_some_iff tree).mp hliteral
  refine applicable_hoistFix spanned ?_ lines ?_ _
  · obtain ⟨_, hkind, _⟩ := (literalIn?_eq_some_iff tree).mp hslot
    exact lt_size_of_kind tree (by rw [hkind]; decide)
  · rw [tree.ancestors_of_some (parent?_of_offendingLiteral? linked hliteral)]
    exact mem_of_anchor? hanchor

/-- **The fixes selected from a round of linting can be applied together.**  The parser
enters only through the spans of its raw tree. -/
theorem exists_applyEdits_lint {source : String} {raw : RawTree}
    (fits : raw.fits source.toList = true) (hasErrors disambiguate : Bool) :
    ∃ text, applyEdits source
      (selectFixes (fixesOf (lint (.ofRaw source raw hasErrors) disambiguate))).edits
        = .ok text := by
  refine exists_applyEdits_selectFixes fun fix mem => ?_
  exact applicable_of_mem_fixesOf (linked_ofRaw source raw hasErrors)
    (wellSpanned_ofRaw fits hasErrors) mem

end AliasHoist
