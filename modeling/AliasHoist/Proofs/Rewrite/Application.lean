import AliasHoist.Rewrite.Apply
import AliasHoist.Rewrite.Fix

/-!
# When edits can be applied

Edits are compared twice.  `selectFixes` looks at pairs of edits in the order of the report and asks
whether they touch the same bytes; `sweep` looks at one edit after the other in the order of the
text and asks whether it begins before the end of the last.  The two questions have the same answer
for edits that are ranges of the text and whose replacements are not empty.

## Main Definitions

* `Edit.isProper`: an edit that is not the replacement of nothing;
* `Fix.Applicable`: a fix whose two edits can be applied to a text.

## Main Statements

* `exists_sweep_eq_ok_iff`: the sweep succeeds exactly on ranges that follow one another;
* `exists_applyEdits_eq_ok_iff`: edits given in any order can be applied exactly when no two of
  them overlap;
* `pairwise_accepted`: accepted fixes do not collide;
* `exists_applyEdits_selectFixes`: what is selected from applicable fixes can be applied.

### What is load-bearing

An empty replacement overlaps nothing, yet the sweep refuses it in the middle of another edit, so
`Edit.isProper` cannot be left out.  The order by rank cannot either: an insertion at the start of a
replacement is fine only because it is applied first.
-/

namespace AliasHoist

/-! ## The order of the sweep -/

namespace Edit

/-- The order of the sweep is by offset, and at one offset insertions come first. -/
theorem comesBefore_iff {a b : Edit} :
    a.comesBefore b = true ↔ a.start < b.start ∨ (a.start = b.start ∧ a.rank ≤ b.rank) := by
  simp [comesBefore]

theorem comesBefore_trans (a b c : Edit) (hab : a.comesBefore b = true)
    (hbc : b.comesBefore c = true) : a.comesBefore c = true := by
  rw [comesBefore_iff] at *
  omega

theorem comesBefore_total (a b : Edit) : (a.comesBefore b || b.comesBefore a) = true := by
  rw [Bool.or_eq_true, comesBefore_iff, comesBefore_iff]
  omega

end Edit

/-- Edits put in order are in the order of the sweep. -/
theorem pairwise_inOrder (edits : List Edit) :
    (inOrder edits).Pairwise fun a b => a.comesBefore b = true :=
  List.pairwise_mergeSort Edit.comesBefore_trans Edit.comesBefore_total edits

theorem inOrder_perm (edits : List Edit) : (inOrder edits).Perm edits :=
  List.mergeSort_perm edits Edit.comesBefore

/-! ## The sweep -/

theorem start_le_stop_of_isRangeOf {source : List Char} {edit : Edit}
    (h : isRangeOf source edit = true) : edit.start ≤ edit.stop := by
  simp only [isRangeOf, Bool.and_eq_true, decide_eq_true_eq] at h
  exact h.1.1

/-- A range does not cut a character in two. -/
theorem isBoundary_of_isRangeOf {source : List Char} {edit : Edit}
    (range : isRangeOf source edit = true) :
    Text.isBoundary edit.start source = true ∧ Text.isBoundary edit.stop source = true := by
  simp only [isRangeOf, Bool.and_eq_true] at range
  exact ⟨range.1.2, range.2⟩

/-- **A step of the sweep**: the edit is a range past the cursor, its text stands behind
what is copied up to it, and the rest is swept from its end.  It is the only place where
the sweep is opened. -/
theorem sweep_cons_eq_ok_iff {source : List Char} {cursor : Nat} {edit : Edit} {rest : List Edit}
    {text : List Char} :
    sweep source cursor (edit :: rest) = .ok text ↔
      isRangeOf source edit = true ∧ cursor ≤ edit.start ∧
        ∃ tail, sweep source edit.stop rest = .ok tail ∧
          text = Text.sliceBytes cursor edit.start source ++ edit.text.toList ++ tail := by
  rw [sweep]
  cases isRangeOf source edit with
  | false => simp
  | true =>
      simp only [Bool.not_true, Bool.false_eq_true, if_false, true_and]
      by_cases lt : edit.start < cursor
      · rw [if_pos lt]
        refine iff_of_false (by simp) fun h => ?_
        have := h.1
        omega
      · rw [if_neg lt]
        cases sweep source edit.stop rest with
        | error error => simp [Except.map]
        | ok tail => simp [Except.map, Nat.le_of_not_lt lt, eq_comm]

/-- A step of the sweep succeeds when the edit is a range past the cursor and the rest
succeeds.  The text is left out where only success matters. -/
theorem exists_sweep_cons_iff {source : List Char} {cursor : Nat} {edit : Edit}
    {rest : List Edit} :
    (∃ text, sweep source cursor (edit :: rest) = .ok text) ↔
      isRangeOf source edit = true ∧ cursor ≤ edit.start ∧
        ∃ text, sweep source edit.stop rest = .ok text := by
  constructor
  · rintro ⟨text, swept⟩
    obtain ⟨range, le, tail, sweptRest, _⟩ := sweep_cons_eq_ok_iff.mp swept
    exact ⟨range, le, tail, sweptRest⟩
  · rintro ⟨range, le, tail, sweptRest⟩
    exact ⟨_, sweep_cons_eq_ok_iff.mpr ⟨range, le, tail, sweptRest, rfl⟩⟩

/-- **The sweep succeeds exactly on ranges that follow one another from the cursor on.**
An induction on the edits with the step above; the cursor disappears in the pairwise
condition. -/
theorem exists_sweep_eq_ok_iff {source : List Char} {cursor : Nat} {edits : List Edit} :
    (∃ text, sweep source cursor edits = .ok text) ↔
      (∀ edit ∈ edits, isRangeOf source edit = true) ∧
        edits.Pairwise (fun a b => a.stop ≤ b.start) ∧ ∀ edit ∈ edits, cursor ≤ edit.start := by
  induction edits generalizing cursor with
  | nil => simp [sweep]
  | cons edit rest ih =>
      rw [exists_sweep_cons_iff, ih, List.pairwise_cons, List.forall_mem_cons,
        List.forall_mem_cons]
      constructor
      · rintro ⟨range, le, ranges, follow, after⟩
        -- the cursor only moves to the right: what begins after `edit` begins after `cursor`
        refine ⟨⟨range, ranges⟩, ⟨after, follow⟩, le, fun next mem => ?_⟩
        have := start_le_stop_of_isRangeOf range
        have := after next mem
        omega
      · rintro ⟨⟨range, ranges⟩, ⟨after, follow⟩, le, _⟩
        exact ⟨range, le, ranges, follow, after⟩

/-- Applying edits is sweeping over the text with the edits in order.  Everything about
texts is then about lists of characters. -/
theorem applyEdits_eq_ok_iff {source output : String} {edits : List Edit} :
    applyEdits source edits = .ok output ↔
      sweep source.toList 0 (inOrder edits) = .ok output.toList := by
  rw [applyEdits]
  cases sweep source.toList 0 (inOrder edits) with
  | error error => simp [Except.map]
  | ok text =>
      simp only [Except.map, Except.ok.injEq]
      constructor
      · rintro rfl
        exact String.toList_ofList.symm
      · rintro rfl
        exact String.ofList_toList

/-! ## Overlaps -/

/-- Whether an edit is anything but the replacement of an empty range.  Edits of fixes
are, as literals are not empty. -/
def Edit.isProper : Edit → Bool
  | insert _ _ => true
  | replace start stop _ => start < stop

/-- **For edits in the order of the sweep, not to overlap is to follow one another.**
Overlap is symmetric and following is not, so the order is needed. -/
theorem Edit.overlaps_eq_false_iff {a b : Edit} (order : a.comesBefore b = true)
    (proper : b.isProper = true) : a.overlaps b = false ↔ a.stop ≤ b.start := by
  rw [comesBefore_iff] at order
  cases a with
  | insert offset text =>
      -- nothing that comes later begins before an insertion
      cases b with
      | insert offset' text' =>
          simp only [overlaps, stop, start, rank] at *
          exact iff_of_true trivial (by omega)
      | replace start' stop' text' =>
          simp only [overlaps, stop, start, rank, Bool.and_eq_false_iff,
            decide_eq_false_iff_not] at *
          omega
  | replace start stop text =>
      cases b with
      | insert offset' text' =>
          simp only [overlaps, Edit.stop, Edit.start, rank, Bool.and_eq_false_iff,
            decide_eq_false_iff_not] at *
          omega
      | replace start' stop' text' =>
          simp only [overlaps, Edit.stop, Edit.start, rank, isProper, decide_eq_true_eq,
            Bool.and_eq_false_iff, decide_eq_false_iff_not] at *
          omega

/-- That no two overlap does not depend on the order in which they are given. -/
theorem pairwise_overlaps_perm {xs ys : List Edit} (h : xs.Perm ys) :
    (xs.Pairwise fun a b => a.overlaps b = false) ↔ ys.Pairwise fun a b => a.overlaps b = false :=
  h.pairwise_iff fun {a b} hab => by rwa [Edit.overlaps_comm]

theorem pairwise_inOrder_iff {edits : List Edit}
    (proper : ∀ edit ∈ edits, edit.isProper = true) :
    (inOrder edits).Pairwise (fun a b => a.stop ≤ b.start) ↔
      edits.Pairwise fun a b => a.overlaps b = false := by
  rw [← pairwise_overlaps_perm (inOrder_perm edits)]
  have sorted := pairwise_inOrder edits
  have proper' : ∀ edit ∈ inOrder edits, edit.isProper = true := fun edit mem =>
    proper edit ((inOrder_perm edits).mem_iff.mp mem)
  constructor
  · intro follow
    refine (sorted.and follow).imp_of_mem fun {a b} _ hb h => ?_
    exact (Edit.overlaps_eq_false_iff h.1 (proper' b hb)).mpr h.2
  · intro apart
    refine (sorted.and apart).imp_of_mem fun {a b} _ hb h => ?_
    exact (Edit.overlaps_eq_false_iff h.1 (proper' b hb)).mp h.2

/-- **Proper ranges, given in any order, can be applied exactly when no two of them
overlap.**  It is the statement that the two comparisons of edits come to the same. -/
theorem exists_applyEdits_eq_ok_iff {source : String} {edits : List Edit}
    (ranges : ∀ edit ∈ edits, isRangeOf source.toList edit = true)
    (proper : ∀ edit ∈ edits, edit.isProper = true) :
    (∃ text, applyEdits source edits = .ok text) ↔
      edits.Pairwise fun a b => a.overlaps b = false := by
  have swept : (∃ text, applyEdits source edits = .ok text) ↔
      ∃ text, sweep source.toList 0 (inOrder edits) = .ok text := by
    simp only [applyEdits_eq_ok_iff]
    constructor
    · rintro ⟨text, h⟩
      exact ⟨text.toList, h⟩
    · rintro ⟨text, h⟩
      exact ⟨String.ofList text, h.trans (by rw [String.toList_ofList])⟩
  have ranges' : ∀ edit ∈ inOrder edits, isRangeOf source.toList edit = true := fun edit mem =>
    ranges edit ((inOrder_perm edits).mem_iff.mp mem)
  rw [swept, exists_sweep_eq_ok_iff, ← pairwise_inOrder_iff proper]
  exact ⟨fun h => h.2.1, fun h => ⟨ranges', h, fun _ _ => Nat.zero_le _⟩⟩

/-! ## Selection -/

/-- What is accepted is part of what is offered, in the same order.  So what holds of
all fixes of a report holds of the selected ones. -/
theorem accepted_sublist (accepted fixes : List Fix) :
    (selectAfter accepted fixes).accepted.Sublist fixes := by
  induction fixes generalizing accepted with
  | nil => exact .slnil
  | cons fix rest ih =>
      rw [selectAfter]
      split
      · exact (ih accepted).cons fix
      · exact (ih (accepted ++ [fix])).cons_cons fix

/-- **Accepted fixes do not collide**, neither with those accepted before nor with each
other.  The list of those accepted before grows along the induction. -/
theorem pairwise_accepted {accepted : List Fix} (fixes : List Fix)
    (h : accepted.Pairwise fun a b => b.collides a = false) :
    (accepted ++ (selectAfter accepted fixes).accepted).Pairwise
      fun a b => b.collides a = false := by
  induction fixes generalizing accepted with
  | nil => simpa [selectAfter] using h
  | cons fix rest ih =>
      rw [selectAfter]
      split
      · exact ih h
      · rename_i free
        have next : (accepted ++ [fix]).Pairwise fun a b => b.collides a = false := by
          rw [List.pairwise_append]
          refine ⟨h, List.pairwise_singleton _ _, ?_⟩
          intro old mem new hnew
          rw [List.mem_singleton] at hnew
          subst hnew
          simp only [List.any_eq_true, not_exists, not_and, Bool.not_eq_true] at free
          exact free old mem
        simpa using ih next

theorem Fix.overlaps_eq_false_of_collides {a b : Fix} (h : b.collides a = false) :
    ∀ x ∈ a.edits, ∀ y ∈ b.edits, x.overlaps y = false := by
  intro x hx y hy
  simp only [collides, List.any_eq_false, Bool.not_eq_true] at h
  rw [Edit.overlaps_comm]
  exact h y hy x hx

/-- A fix whose two edits can be applied to a text.  The last part makes a fix
compatible with itself. -/
structure Fix.Applicable (source : List Char) (fix : Fix) : Prop where
  isRangeOf : ∀ edit ∈ fix.edits, AliasHoist.isRangeOf source edit = true
  isProper : ∀ edit ∈ fix.edits, edit.isProper = true
  apart : fix.declaration.overlaps fix.reference = false

/-- **What is selected from applicable fixes can be applied.**  Collisions are about
whole fixes and overlaps about edits; within a fix `Applicable` takes over. -/
theorem exists_applyEdits_selectFixes {source : String} {fixes : List Fix}
    (h : ∀ fix ∈ fixes, fix.Applicable source.toList) :
    ∃ text, applyEdits source (selectFixes fixes).edits = .ok text := by
  have applicable : ∀ fix ∈ (selectFixes fixes).accepted, fix.Applicable source.toList :=
    fun fix mem => h fix ((accepted_sublist [] fixes).subset mem)
  have apart : (selectFixes fixes).accepted.Pairwise fun a b => b.collides a = false :=
    pairwise_accepted fixes .nil
  refine (exists_applyEdits_eq_ok_iff ?_ ?_).mpr ?_
  · intro edit mem
    obtain ⟨fix, hfix, hedit⟩ := List.mem_flatMap.mp mem
    exact (applicable fix hfix).isRangeOf edit hedit
  · intro edit mem
    obtain ⟨fix, hfix, hedit⟩ := List.mem_flatMap.mp mem
    exact (applicable fix hfix).isProper edit hedit
  · rw [FixSelection.edits, List.pairwise_flatMap]
    refine ⟨fun fix mem => ?_, apart.imp Fix.overlaps_eq_false_of_collides⟩
    simpa [Fix.edits] using (applicable fix mem).apart

end AliasHoist
