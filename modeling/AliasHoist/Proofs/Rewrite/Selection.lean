import AliasHoist.Proofs.Rewrite.Application
import Mathlib.Data.List.Induction

/-!
# What a selection accepts

A selection walks over the fixes of a round and accepts each unless it collides with one that it has
accepted before.  This module says what comes out without the walk: the fixes are split by their
positions, no two accepted ones collide, and each deferred one collides with an accepted one in
front of it.  There is only one such split.

## Main Definitions

* `atPositions`: the entries of a list at marked positions;
* `IsSelection`: marks that accept no two fixes that collide, and defer none without a reason.

## Main Statements

* `selectFixes_concat`: what one more fix changes;
* `IsSelection.concat`: a selection goes on with one more fix by the rule of the walk;
* `IsSelection.unique`: fixes have one selection only;
* `accepted_selectFixes_eq_nil_iff`: where there is a fix, one is accepted;
* `fixes_split_by_collision`: the fixes of a round are split by the only selection they have.

### What is load-bearing

A fix is compared with accepted fixes only, never with deferred ones.  So a deferred fix takes no
place from those behind it, and the reason for deferring a fix is always one that is applied.
-/

namespace AliasHoist

/-! ## Positions -/

section Positions

variable {α : Type}

/-- The entries of a list at the positions that are marked, in their order.  Positions
and not fixes are marked, as a list may hold one fix twice. -/
def atPositions (marked : Nat → Bool) (xs : List α) : List α :=
  (xs.zipIdx.filter fun entry => marked entry.2).map (·.1)

theorem mem_zipIdx_concat {xs : List α} {x : α} {entry : α × Nat} :
    entry ∈ (xs ++ [x]).zipIdx ↔ entry ∈ xs.zipIdx ∨ entry = (x, xs.length) := by
  rw [List.zipIdx_append, List.mem_append, Nat.zero_add, List.zipIdx_singleton,
    List.mem_singleton]

theorem mem_atPositions_iff {marked : Nat → Bool} {xs : List α} {x : α} :
    x ∈ atPositions marked xs ↔ ∃ entry ∈ xs.zipIdx, marked entry.2 = true ∧ entry.1 = x := by
  rw [atPositions, List.mem_map]
  simp only [List.mem_filter, and_assoc]

/-- Only marks at positions of the list matter.  So marks that agree on the list select
the same. -/
theorem atPositions_congr {marked marked' : Nat → Bool} {xs : List α}
    (same : ∀ i < xs.length, marked i = marked' i) :
    atPositions marked xs = atPositions marked' xs := by
  unfold atPositions
  congr 1
  apply List.filter_congr
  intro entry mem
  exact same entry.2 (List.snd_lt_of_mem_zipIdx mem)

/-- One more entry is there if its position is marked.  It is the step of an induction
from the end. -/
theorem atPositions_concat (marked : Nat → Bool) (xs : List α) (x : α) :
    atPositions marked (xs ++ [x]) =
      atPositions marked xs ++ if marked xs.length = true then [x] else [] := by
  unfold atPositions
  rw [List.zipIdx_append, List.filter_append, List.map_append, Nat.zero_add,
    List.zipIdx_singleton]
  split <;> simp_all

end Positions

/-! ## The walk -/

/-- A walk over two lists is a walk over the first, and then over the second with what
has been accepted by then.  The walk keeps no more than the list of those accepted. -/
theorem selectAfter_append (accepted fixes rest : List Fix) :
    selectAfter accepted (fixes ++ rest) =
      { accepted := (selectAfter accepted fixes).accepted ++
          (selectAfter (accepted ++ (selectAfter accepted fixes).accepted) rest).accepted
        deferred := (selectAfter accepted fixes).deferred ++
          (selectAfter (accepted ++ (selectAfter accepted fixes).accepted) rest).deferred } := by
  induction fixes generalizing accepted with
  | nil => simp [selectAfter]
  | cons fix fixes ih =>
      rw [List.cons_append, selectAfter, selectAfter]
      split
      · rw [ih accepted]
        rfl
      · rw [ih (accepted ++ [fix])]
        simp

/-- **What one more fix changes**: it is deferred if it collides with an accepted one,
and accepted otherwise.  It is the form in which the walk is used below. -/
theorem selectFixes_concat (fixes : List Fix) (fix : Fix) :
    selectFixes (fixes ++ [fix]) =
      if (selectFixes fixes).accepted.any fix.collides = true then
        { accepted := (selectFixes fixes).accepted
          deferred := (selectFixes fixes).deferred ++ [fix] }
      else
        { accepted := (selectFixes fixes).accepted ++ [fix]
          deferred := (selectFixes fixes).deferred } := by
  unfold selectFixes
  rw [selectAfter_append, List.nil_append, selectAfter]
  split <;> simp [selectAfter]

/-- Fixes that do not collide are all accepted.  A selection therefore selects itself
when it is selected from again. -/
theorem selectAfter_of_apart {accepted fixes : List Fix}
    (apart : (accepted ++ fixes).Pairwise fun a b => b.collides a = false) :
    selectAfter accepted fixes = { accepted := fixes, deferred := [] } := by
  induction fixes generalizing accepted with
  | nil => rfl
  | cons fix rest ih =>
      have free : accepted.any fix.collides = false := by
        rw [List.any_eq_false]
        intro old mem
        rw [Bool.not_eq_true]
        exact (List.pairwise_append.mp apart).2.2 old mem fix List.mem_cons_self
      have next : ((accepted ++ [fix]) ++ rest).Pairwise fun a b => b.collides a = false := by
        rwa [List.append_assoc]
      rw [selectAfter, free, if_neg Bool.false_ne_true, ih next]

/-- **Where there is a fix, one is accepted.**  The first fix meets nothing that it
could collide with. -/
theorem accepted_selectFixes_eq_nil_iff {fixes : List Fix} :
    (selectFixes fixes).accepted = [] ↔ fixes = [] := by
  constructor
  · intro nothing
    cases fixes with
    | nil => rfl
    | cons fix rest => simp [selectFixes, selectAfter] at nothing
  · rintro rfl
    rfl

/-! ## Selections -/

/-- Two fixes collide when an edit of one overlaps an edit of the other. -/
theorem Fix.collides_iff {fix other : Fix} :
    fix.collides other = true ↔ ∃ x ∈ fix.edits, ∃ y ∈ other.edits, x.overlaps y = true := by
  simp [collides]

/-- **A selection of fixes**, by their positions: no edit of an accepted fix overlaps an
edit of another, and every deferred fix has an edit that overlaps an edit of an accepted
fix in front of it.  It is what a reader would check in the output, without running the
walk. -/
structure IsSelection (fixes : List Fix) (taken : Nat → Bool) : Prop where
  apart : ∀ a ∈ fixes.zipIdx, ∀ b ∈ fixes.zipIdx, a.2 ≠ b.2 → taken a.2 = true →
    taken b.2 = true → ∀ x ∈ a.1.edits, ∀ y ∈ b.1.edits, x.overlaps y = false
  blocked : ∀ b ∈ fixes.zipIdx, taken b.2 = false → ∃ a ∈ fixes.zipIdx, a.2 < b.2 ∧
    taken a.2 = true ∧ ∃ x ∈ b.1.edits, ∃ y ∈ a.1.edits, x.overlaps y = true

theorem isSelection_nil (taken : Nat → Bool) : IsSelection [] taken := by
  constructor <;> simp

namespace IsSelection

variable {fixes : List Fix} {taken taken' : Nat → Bool}

/-- **A selection goes on with one more fix by the rule of the walk**: the fix is
accepted unless it collides with one that is accepted.  Both ways: whatever the rule
decides, the fields hold for the longer list. -/
theorem concat {fix : Fix} (h : IsSelection fixes taken)
    (same : ∀ i < fixes.length, taken' i = taken i)
    (last : taken' fixes.length = !(atPositions taken fixes).any fix.collides) :
    IsSelection (fixes ++ [fix]) taken' := by
  have before : ∀ entry ∈ fixes.zipIdx, taken' entry.2 = taken entry.2 := fun entry mem =>
    same entry.2 (List.snd_lt_of_mem_zipIdx mem)
  -- an accepted last fix has nothing in common with the accepted ones before it
  have free : taken' fixes.length = true → ∀ a ∈ fixes.zipIdx, taken a.2 = true →
      ∀ x ∈ a.1.edits, ∀ y ∈ fix.edits, x.overlaps y = false := by
    intro accepted a mem marked
    rw [last, Bool.not_eq_true', List.any_eq_false] at accepted
    apply Fix.overlaps_eq_false_of_collides
    exact Bool.eq_false_iff.mpr (accepted a.1 (mem_atPositions_iff.mpr ⟨a, mem, marked, rfl⟩))
  constructor
  · intro a ha b hb ne takenA takenB
    rcases mem_zipIdx_concat.mp ha with oldA | rfl <;>
      rcases mem_zipIdx_concat.mp hb with oldB | rfl
    · exact h.apart a oldA b oldB ne (before a oldA ▸ takenA) (before b oldB ▸ takenB)
    · exact free takenB a oldA (before a oldA ▸ takenA)
    · intro x hx y hy
      rw [Edit.overlaps_comm]
      exact free takenA b oldB (before b oldB ▸ takenB) y hy x hx
    · exact absurd rfl ne
  · intro b hb deferred
    rcases mem_zipIdx_concat.mp hb with old | rfl
    · obtain ⟨a, mem, lt, marked, overlap⟩ := h.blocked b old (before b old ▸ deferred)
      exact ⟨a, mem_zipIdx_concat.mpr (Or.inl mem), lt, (before a mem).trans marked, overlap⟩
    · -- the last fix is deferred, so it collides with an accepted one, which stands before it
      rw [last, Bool.not_eq_false', List.any_eq_true] at deferred
      obtain ⟨other, inTaken, collides⟩ := deferred
      obtain ⟨a, mem, marked, rfl⟩ := mem_atPositions_iff.mp inTaken
      exact ⟨a, mem_zipIdx_concat.mpr (Or.inl mem), List.snd_lt_of_mem_zipIdx mem,
        (before a mem).trans marked, Fix.collides_iff.mp collides⟩

/-- A selection defers a fix exactly when it accepts one in front of it with an overlap.
This determines the marks from left to right. -/
theorem taken_eq_false_iff (h : IsSelection fixes taken) {b : Fix × Nat} (hb : b ∈ fixes.zipIdx) :
    taken b.2 = false ↔ ∃ a ∈ fixes.zipIdx, a.2 < b.2 ∧ taken a.2 = true ∧
      ∃ x ∈ b.1.edits, ∃ y ∈ a.1.edits, x.overlaps y = true := by
  constructor
  · exact h.blocked b hb
  · rintro ⟨a, ha, lt, marked, x, hx, y, hy, overlap⟩
    by_contra accepted
    rw [Bool.not_eq_false] at accepted
    have := h.apart b hb a ha (Nat.ne_of_gt lt) accepted marked x hx y hy
    simp [overlap] at this

/-- **Fixes have one selection only.**  By strong induction on the position, as the
fixes in front of it are marked alike. -/
theorem unique (h : IsSelection fixes taken) (h' : IsSelection fixes taken') :
    ∀ i < fixes.length, taken' i = taken i := by
  intro i
  induction i using Nat.strongRecOn with
  | _ i ih =>
      intro lt
      have mem : (fixes[i], i) ∈ fixes.zipIdx := List.mk_mem_zipIdx_iff_getElem?.mpr (by simp [lt])
      -- the two agree before this position, so they have the same reason to defer, or none
      have agree : taken' i = false ↔ taken i = false := by
        rw [h'.taken_eq_false_iff mem, h.taken_eq_false_iff mem]
        apply exists_congr
        intro a
        apply and_congr_right
        intro ha
        apply and_congr_right
        intro below
        rw [ih a.2 below (List.snd_lt_of_mem_zipIdx ha)]
      cases marked : taken i with
      | false => exact agree.mpr marked
      | true => simpa [marked] using agree

end IsSelection

/-- **The walk makes a selection.**  An induction from the end with
`IsSelection.concat`. -/
theorem exists_isSelection (fixes : List Fix) :
    ∃ taken, IsSelection fixes taken ∧
      selectFixes fixes = { accepted := atPositions taken fixes
                            deferred := atPositions (fun i => !taken i) fixes } := by
  induction fixes using List.reverseRecOn with
  | nil => exact ⟨fun _ => true, isSelection_nil _, rfl⟩
  | append_singleton fixes fix ih =>
      obtain ⟨taken, selection, split⟩ := ih
      let next : Nat → Bool := fun i =>
        if i = fixes.length then !(atPositions taken fixes).any fix.collides else taken i
      have last : next fixes.length = !(atPositions taken fixes).any fix.collides := if_pos rfl
      have same : ∀ i < fixes.length, next i = taken i := fun i lt => if_neg (Nat.ne_of_lt lt)
      refine ⟨next, selection.concat same last, ?_⟩
      -- the marks before the last fix are the old ones, so only its own side of the split grows
      rw [selectFixes_concat, split, atPositions_concat, atPositions_concat, last,
        atPositions_congr same, atPositions_congr fun i lt => congrArg (!·) (same i lt)]
      cases (atPositions taken fixes).any fix.collides <;> simp

/-- **The fixes of a round are split by collision.**  What is accepted and what is deferred are the
fixes at complementary positions, in the order of the list: no edit of an accepted fix overlaps an
edit of another accepted fix, and every deferred fix has an edit that overlaps an edit of an
accepted fix in front of it.  There is no other such split.  A list with a fix has an accepted one,
and of the accepted fixes none is deferred when they are selected from again. -/
theorem fixes_split_by_collision (fixes : List Fix) :
    (∃ taken, IsSelection fixes taken ∧
      selectFixes fixes = { accepted := atPositions taken fixes
                            deferred := atPositions (fun i => !taken i) fixes } ∧
      ∀ taken', IsSelection fixes taken' → ∀ i < fixes.length, taken' i = taken i) ∧
    ((selectFixes fixes).accepted = [] ↔ fixes = []) ∧
    selectFixes (selectFixes fixes).accepted =
      { accepted := (selectFixes fixes).accepted, deferred := [] } := by
  refine ⟨?_, accepted_selectFixes_eq_nil_iff, ?_⟩
  · obtain ⟨taken, selection, split⟩ := exists_isSelection fixes
    exact ⟨taken, selection, split, fun taken' => selection.unique⟩
  · apply selectAfter_of_apart
    exact pairwise_accepted fixes .nil

end AliasHoist
