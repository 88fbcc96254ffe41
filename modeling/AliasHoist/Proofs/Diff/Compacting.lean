import AliasHoist.Diff.Compact
import AliasHoist.Proofs.Diff.Scripts

/-!
# Compacting keeps edit scripts right

Compacting moves, swaps, joins and removes steps, and each of these is a change of a few neighbours
in the list.  So each is right for itself, between the places where the neighbours start and stop,
and the walk of a change up and down the list needs nothing more.

## Main Definitions

* `Cursor.steps`: the edit script around a cursor.

## Main Statements

* `isScript_swap`, `isScript_join`, `isScript_moveUp`, `isScript_moveDown`: the single changes;
* `isScript_shiftUp`, `isScript_shiftDown`: the walk of one change;
* `isScript_compact`: the compact form of an edit script leads to the same places;
* `compact_of_kept`: where nothing changes there is nothing to move.

### What is load-bearing

A step may move past kept lines as far as its own lines repeat them: then the lines that stood on
one side of it are found again on the other (`overlapUp_spec`, `overlapDown_spec`).
-/

namespace AliasHoist.Diff

variable {α : Type} {old new : List α} {place last : Point}

/-! ## Lines of a sequence -/

theorem length_lines {lines : List α} {start count : Nat} (le : start + count ≤ lines.length) :
    ((lines.drop start).take count).length = count := by
  rw [List.length_take, List.length_drop]
  omega

theorem take_lines (lines : List α) (start : Nat) {count n : Nat} (le : n ≤ count) :
    ((lines.drop start).take count).take n = (lines.drop start).take n := by
  rw [List.take_take, Nat.min_eq_left le]

theorem drop_lines (lines : List α) (start : Nat) (count n : Nat) :
    ((lines.drop start).take count).drop n = (lines.drop (start + n)).take (count - n) := by
  rw [List.drop_take, List.drop_drop]

theorem append_lines (lines : List α) (start : Nat) (count n : Nat) :
    (lines.drop start).take (count + n) =
      (lines.drop start).take count ++ (lines.drop (start + count)).take n := by
  rw [List.take_add, List.drop_drop]

/-! ## Changes of neighbours -/

/-- A step without lines stops where it stands. -/
theorem stop_of_empty {step : Step} (empty : step.length = 0) : step.stop place = place := by
  simp [Step.stop, Step.oldLength, Step.newLength, empty]

/-- Kept lines that are none may go. -/
theorem isScript_unlessEmpty {step : Step} (h : IsScript old new place [step] last) :
    IsScript old new place (unlessEmpty step []) last := by
  rw [unlessEmpty]
  split
  · rename_i empty
    exact (stop_of_empty empty).symm.trans h.2
  · exact h

/-- **Two changes of different kinds may be swapped.**  The places that they name in the
sequence which they are not about go out of date by that. -/
theorem isScript_swap {first second : Step} (hfirst : first.kind ≠ .keep)
    (hsecond : second.kind ≠ .keep) (ne : first.kind ≠ second.kind)
    (h : IsScript old new place [first, second] last) :
    IsScript old new place [second, first] last := by
  obtain ⟨kind, i, j, n⟩ := first
  obtain ⟨kind', i', j', n'⟩ := second
  obtain ⟨first, second, rfl⟩ := h
  cases kind with
  | keep => exact absurd rfl hfirst
  | delete =>
      cases kind' with
      | keep => exact absurd rfl hsecond
      | delete => exact absurd rfl ne
      | insert =>
          obtain ⟨rfl, old_le, _⟩ := standsAt_delete_iff.mp first
          obtain ⟨rfl, _, new_le⟩ := standsAt_insert_iff.mp second
          simp only [stop_delete, stop_insert] at new_le ⊢
          exact ⟨standsAt_insert_iff.mpr ⟨rfl, by omega, new_le⟩,
            standsAt_delete_iff.mpr ⟨rfl, old_le, new_le⟩, rfl⟩
  | insert =>
      cases kind' with
      | keep => exact absurd rfl hsecond
      | insert => exact absurd rfl ne
      | delete =>
          obtain ⟨rfl, _, new_le⟩ := standsAt_insert_iff.mp first
          obtain ⟨rfl, old_le, _⟩ := standsAt_delete_iff.mp second
          simp only [stop_delete, stop_insert] at old_le ⊢
          exact ⟨standsAt_delete_iff.mpr ⟨rfl, old_le, by omega⟩,
            standsAt_insert_iff.mpr ⟨rfl, old_le, new_le⟩, rfl⟩

/-- **Two steps of one kind may be joined.**  The second one starts where the first one
stops, so their lines are one run. -/
theorem isScript_join {first second : Step} (same : first.kind = second.kind)
    (h : IsScript old new place [first, second] last) :
    IsScript old new place [first.growRight second.length] last := by
  obtain ⟨kind, i, j, n⟩ := first
  obtain ⟨kind', i', j', n'⟩ := second
  obtain rfl : kind = kind' := same
  obtain ⟨first, second, rfl⟩ := h
  cases kind with
  | keep =>
      obtain ⟨rfl, rfl, _, _, same⟩ := standsAt_keep_iff.mp first
      obtain ⟨_, _, old_le, new_le, same'⟩ := standsAt_keep_iff.mp second
      dsimp only [Step.growRight, stop_keep] at old_le new_le same' ⊢
      refine ⟨standsAt_keep_iff.mpr ⟨rfl, rfl, by omega, by omega, ?_⟩, ?_⟩
      · rw [append_lines, append_lines, same, same']
      · simp [leads_nil, Nat.add_assoc]
  | delete =>
      obtain ⟨rfl, _, _⟩ := standsAt_delete_iff.mp first
      obtain ⟨_, old_le, new_le⟩ := standsAt_delete_iff.mp second
      dsimp only [Step.growRight, stop_delete] at old_le new_le ⊢
      refine ⟨standsAt_delete_iff.mpr ⟨rfl, by omega, new_le⟩, ?_⟩
      simp [leads_nil, Nat.add_assoc]
  | insert =>
      obtain ⟨rfl, _, _⟩ := standsAt_insert_iff.mp first
      obtain ⟨_, old_le, new_le⟩ := standsAt_insert_iff.mp second
      dsimp only [Step.growRight, stop_insert] at old_le new_le ⊢
      refine ⟨standsAt_insert_iff.mpr ⟨rfl, old_le, by omega⟩, ?_⟩
      simp [leads_nil, Nat.add_assoc]

/-- Kept lines in front of kept lines are joined with them from either side.  The walk
joins from the side on which it is, and the result is the same. -/
theorem growLeft_eq_growRight {first second : Step} (hfirst : first.kind = .keep)
    (hsecond : second.kind = .keep) (h : IsScript old new place [first, second] last) :
    second.growLeft first.length = first.growRight second.length := by
  obtain ⟨kind, i, j, n⟩ := first
  obtain ⟨kind', i', j', n'⟩ := second
  obtain rfl : kind = .keep := hfirst
  obtain rfl : kind' = .keep := hsecond
  obtain ⟨rfl, rfl, _⟩ := standsAt_keep_iff.mp h.1
  obtain ⟨rfl, rfl, _⟩ := standsAt_keep_iff.mp h.2.1
  simp [Step.growLeft, Step.growRight, Step.shiftLeft, Nat.add_comm]

/-- The kept lines that an insertion leaves behind when it moves up.  They are the last
ones of those before it, and have its last lines as their new ones. -/
def keptBehind (kept here : Step) (n : Nat) : Step where
  kind := .keep
  oldIndex := kept.oldIndex + kept.length - n
  newIndex := here.newIndex + here.length - n
  length := n

/-- The kept lines that an insertion leaves before it when it moves down.  They are the
first ones of those after it, and have its first lines as their new ones. -/
def keptAhead (kept here : Step) (n : Nat) : Step where
  kind := .keep
  oldIndex := kept.oldIndex
  newIndex := here.newIndex
  length := n

/-- **An insertion moves up past kept lines** that its own last lines repeat.  It then
inserts the lines before them, and the repeated ones are kept behind it. -/
theorem isScript_moveUp {kept here : Step} {n : Nat} (hkept : kept.kind = .keep)
    (hhere : here.kind = .insert) (le : n ≤ kept.length) (le' : n ≤ here.length)
    (again : (old.drop (kept.oldIndex + (kept.length - n))).take n =
      (new.drop (here.newIndex + (here.length - n))).take n)
    (h : IsScript old new place [kept, here] last) :
    IsScript old new place [kept.dropEnd n, here.shiftLeft n, keptBehind kept here n] last := by
  obtain ⟨kind, i, j, k⟩ := kept
  obtain ⟨kind', i', j', m⟩ := here
  obtain rfl : kind = .keep := hkept
  obtain rfl : kind' = .insert := hhere
  obtain ⟨first, second, rfl⟩ := h
  obtain ⟨rfl, rfl, old_le, new_le, same⟩ := standsAt_keep_iff.mp first
  obtain ⟨rfl, _, new_le'⟩ := standsAt_insert_iff.mp second
  dsimp only [Step.dropEnd, Step.shiftLeft, keptBehind, stop_keep, stop_insert] at *
  have before : (old.drop place.x).take (k - n) = (new.drop place.y).take (k - n) := by
    rw [← take_lines old place.x (Nat.sub_le k n), same, take_lines new place.y (Nat.sub_le k n)]
  refine ⟨standsAt_keep_iff.mpr ⟨rfl, rfl, by omega, by omega, before⟩,
    standsAt_insert_iff.mpr
      ⟨show place.y + k - n = place.y + (k - n) by omega,
        show place.x + (k - n) ≤ old.length by omega,
        show place.y + (k - n) + m ≤ new.length by omega⟩,
    standsAt_keep_iff.mpr
      ⟨show place.x + k - n = place.x + (k - n) by omega,
        show place.y + k + m - n = place.y + (k - n) + m by omega,
        show place.x + (k - n) + n ≤ old.length by omega,
        show place.y + (k - n) + m + n ≤ new.length by omega, ?_⟩, ?_⟩
  · show (old.drop (place.x + (k - n))).take n = (new.drop (place.y + (k - n) + m)).take n
    rwa [show place.y + (k - n) + m = place.y + k + (m - n) by omega]
  · simp only [leads_nil, stop_keep, stop_insert, Point.mk.injEq]
    omega

/-- **An insertion moves down past kept lines** that its own first lines repeat.  It
then inserts the lines behind them, and the repeated ones are kept before it. -/
theorem isScript_moveDown {kept here : Step} {n : Nat} (hkept : kept.kind = .keep)
    (hhere : here.kind = .insert) (le : n ≤ kept.length)
    (again : (old.drop kept.oldIndex).take n = (new.drop here.newIndex).take n)
    (h : IsScript old new place [here, kept] last) :
    IsScript old new place [keptAhead kept here n, here.shiftRight n, kept.dropFront n] last := by
  obtain ⟨kind, i, j, k⟩ := kept
  obtain ⟨kind', i', j', m⟩ := here
  obtain rfl : kind = .keep := hkept
  obtain rfl : kind' = .insert := hhere
  obtain ⟨first, second, rfl⟩ := h
  obtain ⟨rfl, _, _⟩ := standsAt_insert_iff.mp first
  obtain ⟨rfl, rfl, old_le, new_le, same⟩ := standsAt_keep_iff.mp second
  dsimp only [Step.dropFront, Step.shiftRight, keptAhead, stop_keep, stop_insert] at *
  have behind : (old.drop (place.x + n)).take (k - n) =
      (new.drop (place.y + m + n)).take (k - n) := by
    rw [← drop_lines, same, drop_lines]
  refine ⟨standsAt_keep_iff.mpr ⟨rfl, rfl, by omega, by omega, again⟩,
    standsAt_insert_iff.mpr
      ⟨rfl, show place.x + n ≤ old.length by omega, show place.y + n + m ≤ new.length by omega⟩,
    standsAt_keep_iff.mpr
      ⟨rfl, show place.y + m + n = place.y + n + m by omega,
        show place.x + n + (k - n) ≤ old.length by omega,
        show place.y + n + m + (k - n) ≤ new.length by omega, ?_⟩, ?_⟩
  · show (old.drop (place.x + n)).take (k - n) = (new.drop (place.y + n + m)).take (k - n)
    rwa [Nat.add_right_comm]
  · simp only [leads_nil, stop_keep, stop_insert, Point.mk.injEq]
    omega

/-! ## What is left of kept lines -/

theorem reverse_unlessEmpty (step : Step) (rest : List Step) :
    (unlessEmpty step rest).reverse = rest.reverse ++ unlessEmpty step [] := by
  rw [unlessEmpty, unlessEmpty]
  split
  · rw [List.append_nil]
  · rw [List.reverse_cons]

theorem unlessEmpty_eq_append (step : Step) (rest : List Step) :
    unlessEmpty step rest = unlessEmpty step [] ++ rest := by
  rw [unlessEmpty, unlessEmpty]
  split
  · rfl
  · rfl

/-- The kept lines behind an insertion that moved up are joined with those that follow. -/
theorem isScript_keepAfter {kept here : Step} {n : Nat} {after : List Step}
    (h : IsScript old new place (keptBehind kept here n :: after) last) :
    IsScript old new place (keepAfter kept here n after) last := by
  cases after with
  | nil => exact h
  | cons next rest =>
      rw [keepAfter]
      split
      · rename_i hnext
        have joined (a b : Point) (pair : IsScript old new a [keptBehind kept here n, next] b) :
            IsScript old new a [next.growLeft n] b := by
          rw [show n = (keptBehind kept here n).length from rfl,
            growLeft_eq_growRight rfl hnext pair]
          exact isScript_join hnext.symm pair
        exact Leads.replace [] [_, _] (joined _ _) h
      · exact h

/-- The kept lines before an insertion that moved down are joined with those that precede. -/
theorem isScript_keepBefore {kept here : Step} {n : Nat} {before after : List Step}
    (h : IsScript old new place (before.reverse ++ keptAhead kept here n :: after) last) :
    IsScript old new place ((keepBefore kept here n before).reverse ++ after) last := by
  cases before with
  | nil => exact h
  | cons previous rest =>
      rw [keepBefore]
      split
      · rename_i hprevious
        rw [List.reverse_cons, List.append_assoc] at h ⊢
        exact Leads.replace _ [previous, keptAhead kept here n] (isScript_join hprevious) h
      · rw [List.reverse_cons, List.append_assoc]
        exact h

/-! ## How far a step may move -/

variable [DecidableEq α]

/-- **An insertion may move up** as far as its last lines repeat the kept lines before
it.  The count is what the two runs of lines have in common at their ends. -/
theorem overlapUp_spec {kept here : Step} (hkept : kept.kind = .keep) (hhere : here.kind = .insert)
    (old_le : kept.oldIndex + kept.length ≤ old.length)
    (new_le : here.newIndex + here.length ≤ new.length) {n : Nat}
    (hn : n = overlapUp old new kept here) :
    n ≤ kept.length ∧ n ≤ here.length ∧
      (old.drop (kept.oldIndex + (kept.length - n))).take n =
        (new.drop (here.newIndex + (here.length - n))).take n := by
  rw [overlapUp, Step.oldLines_of_ne (by simp [hkept]), Step.newLines_of_ne (by simp [hhere])] at hn
  have le := commonSuffix_le_left ((old.drop kept.oldIndex).take kept.length)
    ((new.drop here.newIndex).take here.length)
  have le' := commonSuffix_le_right ((old.drop kept.oldIndex).take kept.length)
    ((new.drop here.newIndex).take here.length)
  have same := drop_commonSuffix ((old.drop kept.oldIndex).take kept.length)
    ((new.drop here.newIndex).take here.length)
  rw [← hn, length_lines old_le] at le
  rw [← hn, length_lines new_le] at le'
  rw [← hn, length_lines old_le, length_lines new_le, drop_lines, drop_lines,
    Nat.sub_sub_self le, Nat.sub_sub_self le'] at same
  exact ⟨le, le', same⟩

/-- **An insertion may move down** as far as its first lines repeat the kept lines after
it.  The count is what the two runs of lines have in common at their beginnings. -/
theorem overlapDown_spec {kept here : Step} (hkept : kept.kind = .keep)
    (hhere : here.kind = .insert) (old_le : kept.oldIndex + kept.length ≤ old.length)
    (new_le : here.newIndex + here.length ≤ new.length) {n : Nat}
    (hn : n = overlapDown old new kept here) :
    n ≤ kept.length ∧ (old.drop kept.oldIndex).take n = (new.drop here.newIndex).take n := by
  rw [overlapDown, Step.oldLines_of_ne (by simp [hkept]), Step.newLines_of_ne (by simp [hhere])]
    at hn
  have le := commonPrefix_le_left ((old.drop kept.oldIndex).take kept.length)
    ((new.drop here.newIndex).take here.length)
  have le' := commonPrefix_le_right ((old.drop kept.oldIndex).take kept.length)
    ((new.drop here.newIndex).take here.length)
  have same := take_commonPrefix ((old.drop kept.oldIndex).take kept.length)
    ((new.drop here.newIndex).take here.length)
  rw [← hn, length_lines old_le] at le
  rw [← hn, length_lines new_le] at le'
  rw [← hn, take_lines _ _ le, take_lines _ _ le'] at same
  exact ⟨le, same⟩

/-- A deletion has no lines that could repeat kept ones.  So only insertions move past
kept lines. -/
theorem kind_eq_insert_of_overlapUp_pos {kept here : Step} (ne : here.kind ≠ .keep)
    (h : 0 < overlapUp old new kept here) : here.kind = .insert := by
  cases hkind : here.kind with
  | keep => exact absurd hkind ne
  | insert => rfl
  | delete =>
      have le := commonSuffix_le_right (kept.oldLines old) (here.newLines new)
      rw [overlapUp] at h
      rw [Step.newLines_of_delete hkind] at le h
      exact absurd h (Nat.not_lt_of_le le)

/-- The same on the way down. -/
theorem kind_eq_insert_of_overlapDown_pos {kept here : Step} (ne : here.kind ≠ .keep)
    (h : 0 < overlapDown old new kept here) : here.kind = .insert := by
  cases hkind : here.kind with
  | keep => exact absurd hkind ne
  | insert => rfl
  | delete =>
      have le := commonPrefix_le_right (kept.oldLines old) (here.newLines new)
      rw [overlapDown] at h
      rw [Step.newLines_of_delete hkind] at le h
      exact absurd h (Nat.not_lt_of_le le)

/-! ## The walk of one change -/

/-- The edit script around a cursor. -/
def Cursor.steps (cursor : Cursor) : List Step :=
  cursor.before.reverse ++ cursor.here :: cursor.after

/-- An insertion moves up as far as it may. -/
theorem isScript_slideUp {kept here : Step} (hkept : kept.kind = .keep) (ne : here.kind ≠ .keep)
    (pos : 0 < overlapUp old new kept here) (h : IsScript old new place [kept, here] last) :
    IsScript old new place
      [kept.dropEnd (overlapUp old new kept here), here.shiftLeft (overlapUp old new kept here),
        keptBehind kept here (overlapUp old new kept here)] last := by
  have hhere := kind_eq_insert_of_overlapUp_pos ne pos
  obtain ⟨le, le', again⟩ := overlapUp_spec hkept hhere (h.1.oldLines_le (by simp [hkept]))
    (h.2.1.newLines_le (by simp [hhere])) rfl
  exact isScript_moveUp hkept hhere le le' again h

/-- An insertion moves down as far as it may. -/
theorem isScript_slideDown {kept here : Step} (hkept : kept.kind = .keep) (ne : here.kind ≠ .keep)
    (pos : 0 < overlapDown old new kept here) (h : IsScript old new place [here, kept] last) :
    IsScript old new place
      [keptAhead kept here (overlapDown old new kept here),
        here.shiftRight (overlapDown old new kept here),
        kept.dropFront (overlapDown old new kept here)] last := by
  have hhere := kind_eq_insert_of_overlapDown_pos ne pos
  obtain ⟨le, again⟩ := overlapDown_spec hkept hhere (h.2.1.oldLines_le (by simp [hkept]))
    (h.1.newLines_le (by simp [hhere])) rfl
  exact isScript_moveDown hkept hhere le again h

/-- **A change that moves up leaves the edit script right.**  Each turn of the walk is
one of the changes of neighbours, and the induction is the walk's own. -/
theorem isScript_shiftUp {before after : List Step} {here : Step} (ne : here.kind ≠ .keep)
    (h : IsScript old new place (before.reverse ++ here :: after) last) :
    IsScript old new place (shiftUp old new before here after).steps last := by
  fun_induction shiftUp old new before here after with
  | case1 => exact h
  | case2 here after previous rest kept pos ih =>
      rw [List.reverse_cons, List.append_assoc] at h
      have moved := Leads.replace _ [previous, here] (isScript_slideUp kept ne pos) h
      have shrunk := Leads.replace _ [_] isScript_unlessEmpty moved
      obtain ⟨middle, front, back⟩ := leads_append.mp shrunk
      obtain ⟨start, left, back⟩ := leads_append.mp back
      refine ih ne (leads_append.mpr ⟨start, ?_, back.1, isScript_keepAfter back.2⟩)
      rw [reverse_unlessEmpty]
      exact leads_append.mpr ⟨middle, front, left⟩
  | case3 here after previous rest kept pos empty ih =>
      rw [List.reverse_cons, List.append_assoc] at h
      have gone := Leads.replace _ [previous] isScript_unlessEmpty h
      rw [unlessEmpty, if_pos empty] at gone
      exact ih ne gone
  | case4 => exact h
  | case5 here after previous rest kept joined ih =>
      rw [List.reverse_cons, List.append_assoc] at h
      exact ih kept (Leads.replace _ [previous, here] (isScript_join joined) h)
  | case6 here after previous rest kept other ih =>
      rw [List.reverse_cons, List.append_assoc] at h
      exact ih ne (Leads.replace _ [previous, here] (isScript_swap kept ne other) h)

/-- **A change that moves down leaves the edit script right.**  It is the mirror image
of the walk up, except that kept lines are joined on the other side. -/
theorem isScript_shiftDown {before after : List Step} {here : Step} (ne : here.kind ≠ .keep)
    (h : IsScript old new place (before.reverse ++ here :: after) last) :
    IsScript old new place (shiftDown old new before here after).steps last := by
  fun_induction shiftDown old new before here after with
  | case1 => exact h
  | case2 before here next rest kept pos ih =>
      have moved := Leads.replace _ [here, next] (isScript_slideDown kept ne pos) h
      refine ih ne (isScript_keepBefore ?_)
      rw [unlessEmpty_eq_append]
      obtain ⟨middle, front, ahead, shifted, back⟩ := leads_append.mp moved
      exact leads_append.mpr ⟨middle, front, ahead, shifted,
        Leads.replace [] [_] isScript_unlessEmpty back⟩
  | case3 before here next rest kept pos empty ih =>
      obtain ⟨middle, front, stands, back⟩ := leads_append.mp h
      have gone := Leads.replace [] [next] isScript_unlessEmpty back
      rw [unlessEmpty, if_pos empty] at gone
      exact ih ne (leads_append.mpr ⟨middle, front, stands, gone⟩)
  | case4 => exact h
  | case5 before here next rest kept joined ih =>
      exact ih ne (Leads.replace _ [here, next] (isScript_join joined.symm) h)
  | case6 before here next rest kept other ih =>
      have swapped := Leads.replace _ [here, next] (isScript_swap ne kept (Ne.symm other)) h
      refine ih ne ?_
      rw [List.reverse_cons, List.append_assoc]
      exact swapped

/-! ## The compact form -/

/-- **Settling the changes of one kind leaves the edit script right.**  Each change is
moved up and then down, and the walk goes on behind it. -/
theorem isScript_settleAll {kind : StepKind} (before : List Step) {after : List Step}
    (h : IsScript old new place (before.reverse ++ after) last) :
    IsScript old new place (settleAll old new kind before after) last := by
  fun_induction settleAll old new kind before after with
  | case1 before => rwa [List.append_nil] at h
  | case2 before step rest change cursor ih =>
      have ne : step.kind ≠ .keep := change.1 ▸ change.2
      have up := isScript_shiftUp ne h
      have down := isScript_shiftDown (by rwa [kind_shiftUp]) up
      refine ih ?_
      rw [List.reverse_cons, List.append_assoc]
      exact down
  | case3 before step rest other ih =>
      refine ih ?_
      rw [List.reverse_cons, List.append_assoc]
      exact h

/-- **The compact form of an edit script leads to the same places.**  Deletions are
settled first and insertions after them; neither needs the other to be done. -/
theorem isScript_compact {steps : List Step} (h : IsScript old new place steps last) :
    IsScript old new place (compact old new steps) last :=
  isScript_settleAll [] (isScript_settleAll [] h)

/-- Settling passes over kept lines and leaves them where they are. -/
theorem settleAll_of_kept (old new : List α) (kind : StepKind) (before : List Step)
    {after : List Step} (h : ∀ step ∈ after, step.kind = .keep) :
    settleAll old new kind before after = before.reverse ++ after := by
  induction after generalizing before with
  | nil => rw [settleAll, List.append_nil]
  | cons step rest ih =>
      obtain ⟨kept, h⟩ := List.forall_mem_cons.mp h
      rw [settleAll, dif_neg (fun change => change.2 (change.1.symm.trans kept)), ih _ h,
        List.reverse_cons, List.append_assoc, List.singleton_append]

/-- **Where nothing changes there is nothing to move.**  A diff between equal texts
stays a single step for this reason. -/
theorem compact_of_kept (old new : List α) {steps : List Step}
    (h : ∀ step ∈ steps, step.kind = .keep) : compact old new steps = steps := by
  rw [compact, settleAll_of_kept old new .delete [] h, List.reverse_nil, List.nil_append,
    settleAll_of_kept old new .insert [] h, List.reverse_nil, List.nil_append]

end AliasHoist.Diff
