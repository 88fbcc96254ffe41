import AliasHoist.Diff.Myers
import Mathlib.Tactic.SplitIfs

/-!
# Edit scripts that lead somewhere

An edit script is right when its steps stand one behind the other: each begins where the one before
it stops, in either sequence, and the steps that keep lines find the same lines in both.

## Main Definitions

* `Leads`: the entries of a list stand one behind the other on the way between two places;
* `Step.StandsAt`, `Step.stop`: where a step may stand, and where it stops;
* `IsScript`: an edit script on the way between two places of two sequences;
* `IsPart`: a list is the part of another one from a place on.

## Main Statements

* `take_commonPrefix`, `drop_commonSuffix`: what lists have in common;
* `isScript_diff`: the shortest edit script leads through both sequences;
* `diff_self`: between equal sequences it has nothing to change.

### What is load-bearing

A deletion says nothing about its place in the new sequence, nor an insertion about its place in the
old one: these places go out of date when changes are swapped, and no line is looked up there.
-/

namespace AliasHoist.Diff

/-! ## Entries one behind the other -/

section Leads

variable {β : Type} {stands : Point → β → Prop} {stop : Point → β → Point}

/-- **A list leads from one place to another** when its first entry stands at the one,
each other entry stands where the one before it stops, and the last one stops at the
other.  Steps and chunks are both lists of this kind. -/
def Leads (stands : Point → β → Prop) (stop : Point → β → Point) : Point → List β → Point → Prop
  | place, [], last => place = last
  | place, entry :: rest, last =>
      stands place entry ∧ Leads stands stop (stop place entry) rest last

theorem leads_nil {place last : Point} : Leads stands stop place [] last ↔ place = last := Iff.rfl

theorem leads_cons {place last : Point} {entry : β} {rest : List β} :
    Leads stands stop place (entry :: rest) last ↔
      stands place entry ∧ Leads stands stop (stop place entry) rest last := Iff.rfl

/-- **One list after another leads on from where the first one leads.**  With it a part
of a list can be looked at for itself. -/
theorem leads_append {place last : Point} {front back : List β} :
    Leads stands stop place (front ++ back) last ↔
      ∃ middle, Leads stands stop place front middle ∧ Leads stands stop middle back last := by
  induction front generalizing place with
  | nil => simp [Leads]
  | cons entry rest ih => simp only [List.cons_append, leads_cons, ih, and_assoc, exists_and_left]

/-- What leads to the same places may be put in the place of a part of a list.  What
stands before and behind the part is not looked at. -/
theorem Leads.replace (front part : List β) {part' back : List β} {place last : Point}
    (same : ∀ {a b : Point}, Leads stands stop a part b → Leads stands stop a part' b)
    (h : Leads stands stop place (front ++ (part ++ back)) last) :
    Leads stands stop place (front ++ (part' ++ back)) last := by
  obtain ⟨a, hfront, h⟩ := leads_append.mp h
  obtain ⟨b, hpart, hback⟩ := leads_append.mp h
  exact leads_append.mpr ⟨a, hfront, leads_append.mpr ⟨b, same hpart, hback⟩⟩

end Leads

/-! ## Steps at a place -/

section Steps

variable {α : Type} {old new : List α} {place last : Point}

/-- Where a step stops. -/
def Step.stop (place : Point) (step : Step) : Point where
  x := place.x + step.oldLength
  y := place.y + step.newLength

/-- **A step stands at a place of two sequences**: there are as many lines as it is
about, it finds its lines from there on, and lines that it keeps are the same in both.
A step names its place in each sequence of which it has lines. -/
structure Step.StandsAt (old new : List α) (place : Point) (step : Step) : Prop where
  old_le : place.x + step.oldLength ≤ old.length
  new_le : place.y + step.newLength ≤ new.length
  oldIndex : step.kind ≠ .insert → step.oldIndex = place.x
  newIndex : step.kind ≠ .delete → step.newIndex = place.y
  same : step.kind = .keep → step.oldLines old = step.newLines new

theorem Step.oldLines_of_ne {step : Step} (h : step.kind ≠ .insert) (old : List α) :
    step.oldLines old = (old.drop step.oldIndex).take step.length := by
  rw [oldLines, oldLength, if_neg h]

theorem Step.newLines_of_ne {step : Step} (h : step.kind ≠ .delete) (new : List α) :
    step.newLines new = (new.drop step.newIndex).take step.length := by
  rw [newLines, newLength, if_neg h]

/-- A deletion is about no new lines. -/
theorem Step.newLines_of_delete {step : Step} (h : step.kind = .delete) (new : List α) :
    step.newLines new = [] := by
  rw [newLines, newLength, if_pos h, List.take_zero]

/-- The old lines that a step is about are there. -/
theorem Step.StandsAt.oldLines_le {step : Step} (h : step.StandsAt old new place)
    (ne : step.kind ≠ .insert) : step.oldIndex + step.length ≤ old.length := by
  have le := h.old_le
  rwa [Step.oldLength, if_neg ne, ← h.oldIndex ne] at le

/-- The new lines that a step is about are there. -/
theorem Step.StandsAt.newLines_le {step : Step} (h : step.StandsAt old new place)
    (ne : step.kind ≠ .delete) : step.newIndex + step.length ≤ new.length := by
  have le := h.new_le
  rwa [Step.newLength, if_neg ne, ← h.newIndex ne] at le

/-- **An edit script on the way between two places** of two sequences.  It says nothing
about the length of the script: a script that is longer than it has to be is as right.
-/
def IsScript (old new : List α) : Point → List Step → Point → Prop :=
  Leads (Step.StandsAt old new) Step.stop

theorem standsAt_keep_iff {i j n : Nat} :
    Step.StandsAt old new place { kind := .keep, oldIndex := i, newIndex := j, length := n } ↔
      i = place.x ∧ j = place.y ∧ place.x + n ≤ old.length ∧ place.y + n ≤ new.length ∧
        (old.drop place.x).take n = (new.drop place.y).take n := by
  constructor
  · rintro ⟨old_le, new_le, oldIndex, newIndex, same⟩
    obtain rfl := oldIndex (by simp)
    obtain rfl := newIndex (by simp)
    exact ⟨rfl, rfl, old_le, new_le, same rfl⟩
  · rintro ⟨rfl, rfl, old_le, new_le, same⟩
    exact ⟨old_le, new_le, fun _ => rfl, fun _ => rfl, fun _ => same⟩

theorem standsAt_delete_iff {i j n : Nat} :
    Step.StandsAt old new place { kind := .delete, oldIndex := i, newIndex := j, length := n } ↔
      i = place.x ∧ place.x + n ≤ old.length ∧ place.y ≤ new.length := by
  constructor
  · rintro ⟨old_le, new_le, oldIndex, -, -⟩
    exact ⟨oldIndex (by simp), old_le, new_le⟩
  · rintro ⟨rfl, old_le, new_le⟩
    exact ⟨old_le, new_le, fun _ => rfl, by simp, by simp⟩

theorem standsAt_insert_iff {i j n : Nat} :
    Step.StandsAt old new place { kind := .insert, oldIndex := i, newIndex := j, length := n } ↔
      j = place.y ∧ place.x ≤ old.length ∧ place.y + n ≤ new.length := by
  constructor
  · rintro ⟨old_le, new_le, -, newIndex, -⟩
    exact ⟨newIndex (by simp), old_le, new_le⟩
  · rintro ⟨rfl, old_le, new_le⟩
    exact ⟨old_le, new_le, by simp, fun _ => rfl, by simp⟩

@[simp] theorem stop_keep (i j n : Nat) :
    Step.stop place { kind := .keep, oldIndex := i, newIndex := j, length := n } =
      { x := place.x + n, y := place.y + n } := rfl

@[simp] theorem stop_delete (i j n : Nat) :
    Step.stop place { kind := .delete, oldIndex := i, newIndex := j, length := n } =
      { x := place.x + n, y := place.y } := rfl

@[simp] theorem stop_insert (i j n : Nat) :
    Step.stop place { kind := .insert, oldIndex := i, newIndex := j, length := n } =
      { x := place.x, y := place.y + n } := rfl

end Steps

/-! ## What lists have in common -/

section Common

variable {α : Type} [DecidableEq α]

/-- **The common beginning of two lists** is the beginning of either.  That no longer
beginning is in common does not matter here. -/
theorem take_commonPrefix (as bs : List α) :
    as.take (commonPrefix as bs) = bs.take (commonPrefix as bs) := by
  fun_induction commonPrefix as bs with
  | case1 a as bs ih => rw [List.take_succ_cons, List.take_succ_cons, ih]
  | case2 => rw [List.take_zero, List.take_zero]
  | case3 => rw [List.take_zero, List.take_zero]

/-- **The common end of two lists** is the end of either.  It is the common beginning of
the reversed lists. -/
theorem drop_commonSuffix (as bs : List α) :
    as.drop (as.length - commonSuffix as bs) = bs.drop (bs.length - commonSuffix as bs) := by
  have same := take_commonPrefix as.reverse bs.reverse
  rw [List.take_reverse, List.take_reverse, List.reverse_inj] at same
  exact same

theorem commonPrefix_self (as : List α) : commonPrefix as as = as.length := by
  induction as with
  | nil => rfl
  | cons a as ih => rw [commonPrefix, if_pos rfl, ih, List.length_cons]

end Common

/-! ## Parts of a list -/

section Parts

variable {α : Type} {whole part : List α} {start : Nat}

/-- **A list is the part of another one** from a place on.  The search cuts the
sequences into parts and names places in the whole. -/
structure IsPart (whole : List α) (start : Nat) (part : List α) : Prop where
  le : start + part.length ≤ whole.length
  eq : (whole.drop start).take part.length = part

theorem isPart_self (whole : List α) : IsPart whole 0 whole where
  le := by omega
  eq := by rw [List.drop_zero, List.take_length]

/-- The lines of a part, counted within it. -/
theorem IsPart.slice (h : IsPart whole start part) (skip n : Nat) (le : skip + n ≤ part.length) :
    (whole.drop (start + skip)).take n = (part.drop skip).take n := by
  have within : part.drop skip = (whole.drop (start + skip)).take (part.length - skip) := by
    rw [← List.drop_drop, ← List.drop_take, h.eq]
  rw [within, List.take_take, Nat.min_eq_left (by omega)]

theorem IsPart.drop (h : IsPart whole start part) {n : Nat} (le : n ≤ part.length) :
    IsPart whole (start + n) (part.drop n) where
  le := by
    have := h.le
    rw [List.length_drop]
    omega
  eq := by
    rw [List.length_drop, h.slice n (part.length - n) (by omega),
      List.take_of_length_le (Nat.le_of_eq List.length_drop)]

theorem IsPart.take (h : IsPart whole start part) (n : Nat) : IsPart whole start (part.take n) where
  le := by
    have := h.le
    rw [List.length_take]
    omega
  eq := by
    have := h.slice 0 (min n part.length) (by omega)
    rw [List.length_take]
    rw [Nat.add_zero, List.drop_zero] at this
    rw [this, List.take_eq_take_iff]
    omega

/-- A list without its first and its last entries. -/
def inner (front back : Nat) (lines : List α) : List α :=
  (lines.drop front).take ((lines.drop front).length - back)

theorem length_inner {front back : Nat} {lines : List α} :
    (inner front back lines).length = lines.length - front - back := by
  rw [inner, List.length_take, List.length_drop]
  omega

theorem IsPart.inner (h : IsPart whole start part) {front : Nat} (le : front ≤ part.length)
    (back : Nat) : IsPart whole (start + front) (inner front back part) :=
  (h.drop le).take _

end Parts

/-! ## The shortest edit script -/

section Shortest

variable {α : Type} {old new old' new' : List α} {i j : Nat}

/-- Lines that are a part of both sequences are kept. -/
theorem isScript_keepStep {lines : List α} {n : Nat} (hold : IsPart old i lines)
    (hnew : IsPart new j lines) (count : lines.length = n) :
    IsScript old new { x := i, y := j } (keepStep i j n) { x := i + n, y := j + n } := by
  subst count
  rw [keepStep]
  split
  · rename_i none
    rw [none]
    rfl
  · exact ⟨standsAt_keep_iff.mpr ⟨rfl, rfl, hold.le, hnew.le, hold.eq.trans hnew.eq.symm⟩, rfl⟩

/-- Old lines that have no counterpart go, and the place in the new sequence stays. -/
theorem isScript_deleteStep (hold : IsPart old i old') (le : j ≤ new.length) :
    IsScript old new { x := i, y := j } [deleteStep i j old'.length]
      { x := i + old'.length, y := j } :=
  ⟨standsAt_delete_iff.mpr ⟨rfl, hold.le, le⟩, rfl⟩

/-- New lines that have no counterpart come, whatever place in the old sequence the step
names. -/
theorem isScript_insertStep (hnew : IsPart new j new') (le : i ≤ old.length) (k : Nat) :
    IsScript old new { x := i, y := j } [insertStep k j new'.length]
      { x := i, y := j + new'.length } :=
  ⟨standsAt_insert_iff.mpr ⟨rfl, le, hnew.le⟩, rfl⟩

/-- Where nothing is in common, everything old goes and everything new comes. -/
theorem isScript_replace (hold : IsPart old i old') (hnew : IsPart new j new') :
    IsScript old new { x := i, y := j } [deleteStep i j old'.length, insertStep i j new'.length]
      { x := i + old'.length, y := j + new'.length } := by
  have := hold.le
  have := hnew.le
  exact leads_append.mpr ⟨_, isScript_deleteStep hold (by omega),
    isScript_insertStep hnew hold.le i⟩

variable [DecidableEq α]

/-- The steps between two sequences without a common beginning or end.  Where the two
searches meet, the script is made in two halves; where they do not meet in time,
everything is replaced. -/
def changeSteps (i j : Nat) (old new : List α) : List Step :=
  if old.isEmpty && new.isEmpty then []
  else if new.isEmpty then [deleteStep i j old.length]
  else if old.isEmpty then [insertStep i j new.length]
  else
    match middle? old new with
    | some point =>
        if _h : point.cuts old.length new.length then
          diff i j (old.take point.x) (new.take point.y) ++
            diff (i + point.x) (j + point.y) (old.drop point.x) (new.drop point.y)
        else [deleteStep i j old.length, insertStep i j new.length]
    | none => [deleteStep i j old.length, insertStep i j new.length]

/-- **The shortest edit script keeps the common beginning and the common end**, and changes what is
between them. -/
theorem diff_eq {front back : Nat} (hfront : front = commonPrefix old' new')
    (hback : back = commonSuffix (old'.drop front) (new'.drop front)) :
    diff i j old' new' =
      keepStep i j front ++
        (changeSteps (i + front) (j + front) (inner front back old') (inner front back new') ++
          keepStep (i + front + (inner front back old').length)
            (j + front + (inner front back new').length) back) := by
  subst hfront hback
  rw [diff, List.append_assoc]
  rfl

/-- The script between two sequences is right, if those between shorter ones are.  Where
the searches meet is not looked at: any place within both sequences will do. -/
theorem isScript_changeSteps (hold : IsPart old i old') (hnew : IsPart new j new')
    (shorter : ∀ {i j : Nat} {first second : List α},
      first.length + second.length < old'.length + new'.length →
        IsPart old i first → IsPart new j second →
          IsScript old new { x := i, y := j } (diff i j first second)
            { x := i + first.length, y := j + second.length }) :
    IsScript old new { x := i, y := j } (changeSteps i j old' new')
      { x := i + old'.length, y := j + new'.length } := by
  have := hold.le
  have := hnew.le
  rw [changeSteps]
  split_ifs with none noNew noOld
  · simp only [Bool.and_eq_true, List.isEmpty_iff] at none
    rw [none.1, none.2]
    rfl
  · rw [List.isEmpty_iff.mp noNew]
    exact isScript_deleteStep hold (by omega)
  · rw [List.isEmpty_iff.mp noOld]
    exact isScript_insertStep hnew (by omega) i
  · cases middle? old' new' with
    | none => exact isScript_replace hold hnew
    | some point =>
        dsimp only
        split_ifs with cuts
        · simp only [Point.cuts, Bool.and_eq_true, decide_eq_true_eq] at cuts
          obtain ⟨⟨⟨positive, short⟩, hx⟩, hy⟩ := cuts
          have front := shorter (by rw [List.length_take, List.length_take]; omega)
            (hold.take point.x) (hnew.take point.y)
          have back := shorter (by rw [List.length_drop, List.length_drop]; omega)
            (hold.drop hx) (hnew.drop hy)
          rw [List.length_take, List.length_take, Nat.min_eq_left hx, Nat.min_eq_left hy] at front
          rw [List.length_drop, List.length_drop] at back
          rw [show i + old'.length = i + point.x + (old'.length - point.x) by omega,
            show j + new'.length = j + point.y + (new'.length - point.y) by omega]
          exact leads_append.mpr ⟨_, front, back⟩
        · exact isScript_replace hold hnew

/-- **The shortest edit script leads through both sequences**, wherever in larger ones
they are.  The induction is on the number of lines of both. -/
theorem isScript_diff (hold : IsPart old i old') (hnew : IsPart new j new') :
    IsScript old new { x := i, y := j } (diff i j old' new')
      { x := i + old'.length, y := j + new'.length } := by
  induction hsize : old'.length + new'.length using Nat.strongRecOn generalizing i j old' new' with
  | _ size ih =>
      obtain ⟨front, hfront⟩ : ∃ front, front = commonPrefix old' new' := ⟨_, rfl⟩
      obtain ⟨back, hback⟩ : ∃ back, back = commonSuffix (old'.drop front) (new'.drop front) :=
        ⟨_, rfl⟩
      have frontOld : front ≤ old'.length := hfront ▸ commonPrefix_le_left old' new'
      have frontNew : front ≤ new'.length := hfront ▸ commonPrefix_le_right old' new'
      have backOld := commonSuffix_le_left (old'.drop front) (new'.drop front)
      have backNew := commonSuffix_le_right (old'.drop front) (new'.drop front)
      rw [← hback, List.length_drop] at backOld backNew
      have sameFront : old'.take front = new'.take front := hfront ▸ take_commonPrefix old' new'
      have sameBack : old'.drop (old'.length - back) = new'.drop (new'.length - back) := by
        have same := drop_commonSuffix (old'.drop front) (new'.drop front)
        rw [← hback, List.drop_drop, List.drop_drop, List.length_drop, List.length_drop] at same
        rwa [show old'.length - back = front + (old'.length - front - back) by omega,
          show new'.length - back = front + (new'.length - front - back) by omega]
      -- the common beginning, what is between, and the common end
      have beginning := isScript_keepStep (hold.take front) (sameFront ▸ hnew.take front)
        (by rw [List.length_take, Nat.min_eq_left frontOld])
      have between := isScript_changeSteps (hold.inner frontOld back) (hnew.inner frontNew back)
        fun lt ha hb => ih _ (by rw [length_inner, length_inner] at lt; omega) ha hb rfl
      have ending := isScript_keepStep (hold.drop (Nat.sub_le old'.length back))
        (sameBack ▸ hnew.drop (Nat.sub_le new'.length back))
        (n := back) (by rw [List.length_drop]; omega)
      rw [diff_eq hfront hback]
      refine leads_append.mpr ⟨_, beginning, leads_append.mpr ⟨_, between, ?_⟩⟩
      rw [length_inner, length_inner,
        show i + front + (old'.length - front - back) = i + (old'.length - back) by omega,
        show j + front + (new'.length - front - back) = j + (new'.length - back) by omega,
        show i + old'.length = i + (old'.length - back) + back by omega,
        show j + new'.length = j + (new'.length - back) + back by omega]
      exact ending

/-- **Between equal sequences nothing changes.**  They have everything in common at
their beginning. -/
theorem diff_self (i j : Nat) (lines : List α) :
    diff i j lines lines = keepStep i j lines.length := by
  rw [diff]
  simp [commonPrefix_self, keepStep, commonSuffix]

end Shortest

end AliasHoist.Diff
