import AliasHoist.Proofs.Rewrite.Application

/-!
# The order in which edits are applied

Edits are sorted before the sweep, and edits that the order does not tell apart stay as they were
given.  This module says what that leaves of the order of a list: nothing but the order among edits
of one kind at one offset.

## Main Definitions

* `Edit.isAlike`: edits of one kind that begin at one offset;
* `Precedes`: the order of the sweep on edits that carry their positions in the list;
* `placed`: the edits in the order of the sweep, with their positions.

## Main Statements

* `filter_inOrder`: sorting leaves edits that are alike in their order;
* `inOrder_congr`: lists with the same edits of every kind at every offset are sorted alike;
* `pairwise_placed`: the order of the sweep is strict on edits with their positions.
-/

namespace AliasHoist

namespace Edit

/-- Whether two edits are of the same kind and begin at the same offset.  The sort
cannot tell such edits apart, so it leaves them as they come. -/
def isAlike (a b : Edit) : Bool := a.start == b.start && a.rank == b.rank

theorem isAlike_iff {a b : Edit} : a.isAlike b = true ↔ a.start = b.start ∧ a.rank = b.rank := by
  simp [isAlike]

@[simp] theorem isAlike_self (a : Edit) : a.isAlike a = true := isAlike_iff.mpr ⟨rfl, rfl⟩

/-- Edits that may come in either order are alike. -/
theorem isAlike_of_comesBefore {a b : Edit} (h : a.comesBefore b = true)
    (h' : b.comesBefore a = true) : a.isAlike b = true := by
  rw [comesBefore_iff] at h h'
  rw [isAlike_iff]
  omega

/-- And edits that are alike may come in either order. -/
theorem comesBefore_of_isAlike {edit a b : Edit} (ha : edit.isAlike a = true)
    (hb : edit.isAlike b = true) : a.comesBefore b = true := by
  rw [isAlike_iff] at ha hb
  rw [comesBefore_iff]
  omega

end Edit

/-! ## What sorting keeps -/

/-- **Sorting leaves edits that are alike in their order.**  It is stability, said for
one class at a time. -/
theorem filter_inOrder (edits : List Edit) (edit : Edit) :
    (inOrder edits).filter edit.isAlike = edits.filter edit.isAlike := by
  have sorted : (edits.filter edit.isAlike).Pairwise fun a b => a.comesBefore b = true := by
    refine List.pairwise_of_forall_mem_list fun a ha b hb => ?_
    exact Edit.comesBefore_of_isAlike (List.mem_filter.mp ha).2 (List.mem_filter.mp hb).2
  have sub : (edits.filter edit.isAlike).Sublist (inOrder edits) :=
    List.sublist_mergeSort Edit.comesBefore_trans Edit.comesBefore_total sorted List.filter_sublist
  have kept := sub.filter edit.isAlike
  simp only [List.filter_filter, Bool.and_self] at kept
  exact (kept.eq_of_length ((inOrder_perm edits).filter _).length_eq.symm).symm

/-- An edit is among those alike to it.  So lists with the same classes have the same
members. -/
theorem mem_iff_of_filter_isAlike {xs ys : List Edit} {edit : Edit}
    (same : xs.filter edit.isAlike = ys.filter edit.isAlike) : edit ∈ xs ↔ edit ∈ ys := by
  simpa using congrArg (edit ∈ ·) same

/-- **A sorted list is determined by the edits of every kind at every offset.**  An
induction on both lists: their heads are alike, and so the heads of one class. -/
theorem eq_of_filter_isAlike {xs ys : List Edit}
    (hx : xs.Pairwise fun a b => a.comesBefore b = true)
    (hy : ys.Pairwise fun a b => a.comesBefore b = true)
    (same : ∀ edit : Edit, xs.filter edit.isAlike = ys.filter edit.isAlike) : xs = ys := by
  have mem_iff : ∀ edit : Edit, edit ∈ xs ↔ edit ∈ ys := fun edit =>
    mem_iff_of_filter_isAlike (same edit)
  induction xs generalizing ys with
  | nil =>
      cases ys with
      | nil => rfl
      | cons y ys => exact absurd ((mem_iff y).mpr List.mem_cons_self) List.not_mem_nil
  | cons x xs ih =>
      cases ys with
      | nil => exact absurd ((mem_iff x).mp List.mem_cons_self) List.not_mem_nil
      | cons y ys =>
          obtain ⟨firstX, restX⟩ := List.pairwise_cons.mp hx
          obtain ⟨firstY, restY⟩ := List.pairwise_cons.mp hy
          -- the first edits are alike, and each is the first of its kind at its offset
          have alike : x.isAlike y = true := by
            rcases List.mem_cons.mp ((mem_iff x).mp List.mem_cons_self) with rfl | inY
            · exact x.isAlike_self
            · rcases List.mem_cons.mp ((mem_iff y).mpr List.mem_cons_self) with rfl | inX
              · exact y.isAlike_self
              · exact Edit.isAlike_of_comesBefore (firstX y inX) (firstY x inY)
          have heads := same x
          rw [List.filter_cons_of_pos x.isAlike_self, List.filter_cons_of_pos alike,
            List.cons.injEq] at heads
          obtain ⟨rfl, _⟩ := heads
          have rest : ∀ edit : Edit, xs.filter edit.isAlike = ys.filter edit.isAlike := by
            intro edit
            have := same edit
            rw [List.filter_cons, List.filter_cons] at this
            split at this
            · exact (List.cons.inj this).2
            · exact this
          rw [ih restX restY rest fun edit => mem_iff_of_filter_isAlike (rest edit)]

/-- **Lists with the same edits of every kind at every offset are sorted alike.**  This
is the freedom that a caller has in listing edits. -/
theorem inOrder_congr {edits others : List Edit}
    (same : ∀ edit : Edit, others.filter edit.isAlike = edits.filter edit.isAlike) :
    inOrder others = inOrder edits :=
  eq_of_filter_isAlike (pairwise_inOrder others) (pairwise_inOrder edits) fun edit => by
    rw [filter_inOrder, filter_inOrder, same edit]

/-! ## Edits with their positions -/

/-- **The order in which a list of edits is applied**, for edits with their positions in
the list: by offset, insertions first, and otherwise as they are given.  The position
breaks ties, so this order is strict. -/
def Precedes (a b : Edit × Nat) : Prop :=
  a.1.start < b.1.start ∨ a.1.start = b.1.start ∧
    (a.1.rank < b.1.rank ∨ a.1.rank = b.1.rank ∧ a.2 < b.2)

theorem Precedes.asymm {a b : Edit × Nat} (h : Precedes a b) : ¬ Precedes b a := by
  rw [Precedes] at *
  omega

theorem Precedes.irrefl (a : Edit × Nat) : ¬ Precedes a a := fun h => h.asymm h

/-- The edits in the order of the sweep, with their positions in the list.  It sorts the
same way, and the positions are carried along. -/
def placed (edits : List Edit) : List (Edit × Nat) :=
  edits.zipIdx.mergeSort (List.zipIdxLE Edit.comesBefore)

/-- Without the positions these are the edits in order. -/
theorem map_placed (edits : List Edit) : (placed edits).map (·.1) = inOrder edits :=
  List.mergeSort_zipIdx

theorem mem_placed_iff {edits : List Edit} {at' : Edit × Nat} :
    at' ∈ placed edits ↔ at' ∈ edits.zipIdx :=
  List.mem_mergeSort

/-- **The order of the sweep is strict on edits with their positions.**  It is stability
once more, in the form in which single edits can be compared. -/
theorem pairwise_placed (edits : List Edit) : (placed edits).Pairwise Precedes := by
  have sorted : (placed edits).Pairwise fun a b => List.zipIdxLE Edit.comesBefore a b = true :=
    List.pairwise_mergeSort (List.zipIdxLE_trans Edit.comesBefore_trans)
      (List.zipIdxLE_total Edit.comesBefore_total) _
  have distinct : (placed edits).Pairwise fun a b => a.2 ≠ b.2 := by
    have perm : (placed edits).Perm edits.zipIdx := List.mergeSort_perm _ _
    refine (perm.pairwise_iff fun {a b} h => Ne.symm h).mpr (List.pairwise_map.mp ?_)
    rw [List.zipIdx_map_snd]
    exact List.nodup_range'
  refine (sorted.and distinct).imp fun {a b} h => ?_
  have le := h.1
  have ne := h.2
  simp only [List.zipIdxLE, Edit.comesBefore_iff] at le
  rw [Precedes]
  split at le
  · split at le
    · simp only [decide_eq_true_eq] at le
      omega
    · omega
  · simp at le

end AliasHoist
