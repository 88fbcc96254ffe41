import AliasHoist.Diff.Unified
import AliasHoist.Proofs.Diff.Compacting

/-!
# Chunks and hunks lose no line

Chunks stand one behind the other as the steps do that they are made of, so the lines of either text
are found again in them.  Cutting the chunks into hunks only takes kept lines away.

## Main Definitions

* `Chunk.StandsAt`, `Chunk.stop`: where a chunk may stand, and where it stops;
* `oldSide`, `newSide`: the lines of either text among changes;
* `changedOnly`: the changes without the lines that are kept.

## Main Statements

* `leads_chunksBetween`: the chunks between two texts lead through both of them;
* `oldSide_allChanges`, `newSide_allChanges`: their lines are those of the texts;
* `changedOnly_hunks`: the hunks show each changed line once, in order, whatever the context.

### What is load-bearing

A change that inserts no lines may name any place in the new text, and one that deletes none any
place in the old text: only where a chunk has lines does it have to name their place.
-/

namespace AliasHoist.Diff

variable {old new : List Line} {place last : Point}

/-! ## Chunks at a place -/

namespace Chunk

/-- Where a chunk stops. -/
def stop (place : Point) (chunk : Chunk) : Point where
  x := place.x + chunk.oldLength
  y := place.y + chunk.newLength

/-- **A chunk stands at a place of two texts**: there are as many lines as it is about, it finds its
lines from there on, and lines that it keeps are the same in both. -/
structure StandsAt (old new : List Line) (place : Point) (chunk : Chunk) : Prop where
  old_le : place.x + chunk.oldLength ≤ old.length
  new_le : place.y + chunk.newLength ≤ new.length
  oldStart : 0 < chunk.oldLength → chunk.oldStart = place.x
  newStart : 0 < chunk.newLength → chunk.newStart = place.y
  same : chunk.kept →
    (old.drop place.x).take chunk.oldLength = (new.drop place.y).take chunk.newLength

theorem standsAt_ofStep {step : Step} (h : step.StandsAt old new place) :
    (ofStep step).StandsAt old new place where
  old_le := h.old_le
  new_le := h.new_le
  oldStart := by
    intro some
    apply h.oldIndex
    intro insert
    simp [ofStep, Step.oldLength, insert] at some
  newStart := by
    intro some
    apply h.newIndex
    intro delete
    simp [ofStep, Step.newLength, delete] at some
  same := by
    intro kept
    have keep : step.kind = .keep := of_decide_eq_true kept
    have same := h.same keep
    rwa [Step.oldLines, h.oldIndex (by simp [keep]), Step.newLines, h.newIndex (by simp [keep])]
      at same

theorem stop_extend (chunk : Chunk) (step : Step) :
    (chunk.extend step).stop place = chunk.stop (step.stop place) := by
  rw [extend]
  cases hkind : step.kind with
  | keep => simp [stop, Step.stop, Step.oldLength, Step.newLength, hkind, Nat.add_assoc]
  | delete => simp [stop, Step.stop, Step.oldLength, Step.newLength, hkind, Nat.add_assoc]
  | insert => simp [stop, Step.stop, Step.oldLength, Step.newLength, hkind, Nat.add_assoc]

/-- **A chunk stands where the step stands that is put in front of it.**  The two are of
one kind, so their lines are put together on either side. -/
theorem standsAt_extend {chunk : Chunk} {step : Step} (kind : chunk.kept ↔ step.kind = .keep)
    (hstep : step.StandsAt old new place) (hchunk : chunk.StandsAt old new (step.stop place)) :
    (chunk.extend step).StandsAt old new place := by
  obtain ⟨k, i, j, n⟩ := step
  cases k with
  | keep =>
      obtain ⟨rfl, rfl, _, _, same⟩ := standsAt_keep_iff.mp hstep
      obtain ⟨old_le, new_le, _, _, same'⟩ := hchunk
      rw [stop_keep] at old_le new_le same'
      dsimp only at old_le new_le
      refine ⟨?_, ?_, fun _ => rfl, fun _ => rfl, ?_⟩
      · show place.x + (n + chunk.oldLength) ≤ old.length
        omega
      · show place.y + (n + chunk.newLength) ≤ new.length
        omega
      · intro kept
        show (old.drop place.x).take (n + chunk.oldLength) =
          (new.drop place.y).take (n + chunk.newLength)
        rw [append_lines, append_lines, same, same' kept]
  | delete =>
      obtain ⟨rfl, _, _⟩ := standsAt_delete_iff.mp hstep
      obtain ⟨old_le, new_le, _, newStart, _⟩ := hchunk
      rw [stop_delete] at old_le new_le newStart
      dsimp only at old_le new_le newStart
      refine ⟨?_, new_le, fun _ => rfl, ?_, ?_⟩
      · show place.x + (n + chunk.oldLength) ≤ old.length
        omega
      · intro (some : 0 < chunk.newLength)
        show (if chunk.newLength = 0 then j else chunk.newStart) = place.y
        rw [if_neg (Nat.ne_of_gt some), newStart some]
      · intro kept
        exact absurd (kind.mp kept) (by simp)
  | insert =>
      obtain ⟨rfl, _, _⟩ := standsAt_insert_iff.mp hstep
      obtain ⟨old_le, new_le, oldStart, _, _⟩ := hchunk
      rw [stop_insert] at old_le new_le oldStart
      dsimp only at old_le new_le oldStart
      refine ⟨old_le, ?_, ?_, fun _ => rfl, ?_⟩
      · show place.y + (n + chunk.newLength) ≤ new.length
        omega
      · intro (some : 0 < chunk.oldLength)
        show (if chunk.oldLength = 0 then i else chunk.oldStart) = place.x
        rw [if_neg (Nat.ne_of_gt some), oldStart some]
      · intro kept
        exact absurd (kind.mp kept) (by simp)

/-- The old lines of a chunk, wherever it says that they are. -/
theorem StandsAt.oldLines {chunk : Chunk} (h : chunk.StandsAt old new place) :
    (old.drop chunk.oldStart).take chunk.oldLength = (old.drop place.x).take chunk.oldLength := by
  rcases Nat.eq_zero_or_pos chunk.oldLength with none | some
  · rw [none, List.take_zero, List.take_zero]
  · rw [h.oldStart some]

/-- The new lines of a chunk, wherever it says that they are. -/
theorem StandsAt.newLines {chunk : Chunk} (h : chunk.StandsAt old new place) :
    (new.drop chunk.newStart).take chunk.newLength = (new.drop place.y).take chunk.newLength := by
  rcases Nat.eq_zero_or_pos chunk.newLength with none | some
  · rw [none, List.take_zero, List.take_zero]
  · rw [h.newStart some]

end Chunk

/-- **The chunks of an edit script lead where it leads.**  The induction is on the
steps, the last of which makes the last chunk. -/
theorem leads_chunksOf {steps : List Step} (h : IsScript old new place steps last) :
    Leads (Chunk.StandsAt old new) Chunk.stop place (chunksOf steps) last := by
  induction steps generalizing place with
  | nil => exact h
  | cons step rest ih =>
      obtain ⟨first, rest⟩ := h
      have later := ih rest
      rw [chunksOf]
      cases hchunks : chunksOf _ with
      | nil =>
          rw [hchunks] at later
          exact ⟨Chunk.standsAt_ofStep first, later⟩
      | cons chunk chunks =>
          rw [hchunks] at later
          dsimp only
          split
          · rename_i kind
            refine ⟨Chunk.standsAt_extend (iff_of_eq kind) first later.1, ?_⟩
            rw [Chunk.stop_extend]
            exact later.2
          · exact ⟨Chunk.standsAt_ofStep first, later⟩

/-- **The chunks between two texts lead through both of them.**  Compacting the script
between them has not changed where it leads. -/
theorem leads_chunksBetween (old new : List Line) :
    Leads (Chunk.StandsAt old new) Chunk.stop { x := 0, y := 0 } (chunksBetween old new)
      { x := old.length, y := new.length } := by
  have script := isScript_compact (isScript_diff (isPart_self old) (isPart_self new))
  rw [Nat.zero_add, Nat.zero_add] at script
  exact leads_chunksOf script

/-! ## The two sides of changes -/

/-- The lines among changes that do not have a tag. -/
def linesWithout (tag : LineTag) (changes : List (LineTag × Line)) : List Line :=
  (changes.filter fun change => change.1 ≠ tag).map Prod.snd

/-- **The lines of the old text among changes**: all but the inserted ones.  They come
in the order in which they stand there. -/
def oldSide (changes : List (LineTag × Line)) : List Line := linesWithout .inserted changes

/-- **The lines of the new text among changes**: all but the deleted ones.  Kept lines
are on both sides. -/
def newSide (changes : List (LineTag × Line)) : List Line := linesWithout .deleted changes

theorem linesWithout_append (tag : LineTag) (front back : List (LineTag × Line)) :
    linesWithout tag (front ++ back) = linesWithout tag front ++ linesWithout tag back := by
  rw [linesWithout, List.filter_append, List.map_append, ← linesWithout, ← linesWithout]

theorem linesWithout_map {tag tag' : LineTag} (ne : tag' ≠ tag) (lines : List Line) :
    linesWithout tag (lines.map (tag', ·)) = lines := by
  simp [linesWithout, List.filter_map, Function.comp_def, ne]

theorem linesWithout_map_self (tag : LineTag) (lines : List Line) :
    linesWithout tag (lines.map (tag, ·)) = [] := by
  simp [linesWithout, List.filter_map, Function.comp_def]

/-- The old lines of a chunk are those of the old text at its place. -/
theorem oldSide_changes {chunk : Chunk} (h : chunk.StandsAt old new place) :
    oldSide (chunk.changes old new) = (old.drop place.x).take chunk.oldLength := by
  rw [oldSide, Chunk.changes, h.oldLines, h.newLines]
  split
  · exact linesWithout_map (by decide) _
  · rw [linesWithout_append, linesWithout_map (by decide), linesWithout_map_self, List.append_nil]

/-- The new lines of a chunk are those of the new text at its place. -/
theorem newSide_changes {chunk : Chunk} (h : chunk.StandsAt old new place) :
    newSide (chunk.changes old new) = (new.drop place.y).take chunk.newLength := by
  rw [newSide, Chunk.changes, h.oldLines, h.newLines]
  split
  · rename_i kept
    rw [h.same kept]
    exact linesWithout_map (by decide) _
  · rw [linesWithout_append, linesWithout_map_self, List.nil_append, linesWithout_map (by decide)]

/-- The lines among the changes of several chunks are those of each chunk, one after the
other. -/
theorem linesWithout_flatMap (tag : LineTag) (chunks : List Chunk) :
    linesWithout tag (chunks.flatMap (Chunk.changes old new)) =
      chunks.flatMap fun chunk => linesWithout tag (chunk.changes old new) := by
  rw [linesWithout, List.filter_flatMap, List.map_flatMap]
  rfl

/-- **What each chunk tells of a text on its way, they tell together.**  The two sides
are the two instances; each of them only says what a single chunk tells. -/
theorem flatMap_append_drop {text : List Line} {coordinate : Point → Nat}
    {told : Chunk → List Line} {chunks : List Chunk}
    (each : ∀ {place : Point} {chunk : Chunk}, chunk.StandsAt old new place →
      told chunk ++ text.drop (coordinate (chunk.stop place)) = text.drop (coordinate place))
    (h : Leads (Chunk.StandsAt old new) Chunk.stop place chunks last) :
    chunks.flatMap told ++ text.drop (coordinate last) = text.drop (coordinate place) := by
  induction chunks generalizing place with
  | nil =>
      obtain rfl := h
      rfl
  | cons chunk rest ih => rw [List.flatMap_cons, List.append_assoc, ih h.2, each h.1]

theorem take_append_drop_add (lines : List Line) (start count : Nat) :
    (lines.drop start).take count ++ lines.drop (start + count) = lines.drop start := by
  rw [← List.drop_drop, List.take_append_drop]

/-- **The changes between two texts tell all lines of the old one**, in order. -/
theorem oldSide_allChanges (old new : List Line) : oldSide (allChanges old new) = old := by
  have each {place : Point} {chunk : Chunk} (h : chunk.StandsAt old new place) :
      oldSide (chunk.changes old new) ++ old.drop (chunk.stop place).x = old.drop place.x := by
    rw [oldSide_changes h]
    exact take_append_drop_add old place.x chunk.oldLength
  have told := flatMap_append_drop each (leads_chunksBetween old new)
  rw [List.drop_length, List.append_nil] at told
  exact (linesWithout_flatMap .inserted _).trans told

/-- **The changes between two texts tell all lines of the new one**, in order. -/
theorem newSide_allChanges (old new : List Line) : newSide (allChanges old new) = new := by
  have each {place : Point} {chunk : Chunk} (h : chunk.StandsAt old new place) :
      newSide (chunk.changes old new) ++ new.drop (chunk.stop place).y = new.drop place.y := by
    rw [newSide_changes h]
    exact take_append_drop_add new place.y chunk.newLength
  have told := flatMap_append_drop each (leads_chunksBetween old new)
  rw [List.drop_length, List.append_nil] at told
  exact (linesWithout_flatMap .deleted _).trans told

/-! ## Changed lines in hunks -/

/-- The changes without the lines that are kept.  They are what hunks of any context
have in common. -/
def changedOnly (changes : List (LineTag × Line)) : List (LineTag × Line) :=
  changes.filter fun change => change.1 ≠ .kept

theorem changedOnly_append (front back : List (LineTag × Line)) :
    changedOnly (front ++ back) = changedOnly front ++ changedOnly back :=
  List.filter_append ..

@[simp] theorem kept_takeFront (chunk : Chunk) (n : Nat) :
    (chunk.takeFront n).kept = chunk.kept := rfl

@[simp] theorem kept_takeBack (chunk : Chunk) (n : Nat) :
    (chunk.takeBack n).kept = chunk.kept := rfl

theorem changedOnly_changes_of_kept {chunk : Chunk} (kept : chunk.kept) :
    changedOnly (chunk.changes old new) = [] := by
  rw [Chunk.changes, if_pos kept, changedOnly, List.filter_map]
  simp [Function.comp_def]

theorem changedOnly_flatMap_cons (chunk : Chunk) (rest : List Chunk) :
    changedOnly ((chunk :: rest).flatMap (Chunk.changes old new)) =
      changedOnly (chunk.changes old new) ++
        changedOnly (rest.flatMap (Chunk.changes old new)) := by
  rw [List.flatMap_cons, changedOnly_append]

/-- Cutting a chunk down leaves a change as it is, and kept lines have nothing to show. -/
theorem changedOnly_trim {chunk trimmed : Chunk} (same : trimmed.kept = chunk.kept) :
    changedOnly ((if chunk.kept then trimmed else chunk).changes old new) =
      changedOnly (chunk.changes old new) := by
  split
  · rename_i kept
    rw [changedOnly_changes_of_kept kept, changedOnly_changes_of_kept (same.trans kept)]
  · rfl

/-- Cutting down what is kept at the beginning shows the same changed lines. -/
theorem changedOnly_trimFirst (context : Nat) (chunks : List Chunk) :
    changedOnly ((trimFirst context chunks).flatMap (Chunk.changes old new)) =
      changedOnly (chunks.flatMap (Chunk.changes old new)) := by
  cases chunks with
  | nil => rfl
  | cons chunk rest =>
      rw [trimFirst, changedOnly_flatMap_cons, changedOnly_flatMap_cons,
        changedOnly_trim (kept_takeBack chunk context)]

/-- Cutting down what is kept at the end shows the same changed lines. -/
theorem changedOnly_trimLast (context : Nat) (chunks : List Chunk) :
    changedOnly ((trimLast context chunks).flatMap (Chunk.changes old new)) =
      changedOnly (chunks.flatMap (Chunk.changes old new)) := by
  fun_induction trimLast context chunks with
  | case1 => rfl
  | case2 chunk =>
      rw [changedOnly_flatMap_cons, changedOnly_flatMap_cons,
        changedOnly_trim (kept_takeFront chunk context)]
  | case3 chunk rest more ih =>
      rw [changedOnly_flatMap_cons, changedOnly_flatMap_cons, ih]

/-- A group that changes nothing has nothing to show.  So such a group may be left out,
as the last one is when it has only kept lines. -/
theorem changedOnly_of_not_hasChange {group : List Chunk} (h : ¬ hasChange group) :
    changedOnly (group.flatMap (Chunk.changes old new)) = [] := by
  match group with
  | [] => rfl
  | [chunk] =>
      rw [changedOnly_flatMap_cons, changedOnly_changes_of_kept (by simpa [hasChange] using h)]
      rfl
  | _ :: _ :: _ => exact absurd rfl h

/-- **Groups show what is in the group at hand and in the chunks to come.**  A long run
of kept lines ends a group; of its lines, some are shown twice or not at all, but none
of them is a changed one. -/
theorem changedOnly_groupFrom (context : Nat) (group chunks : List Chunk) :
    changedOnly ((groupFrom context group chunks).flatten.flatMap (Chunk.changes old new)) =
      changedOnly (group.flatMap (Chunk.changes old new)) ++
        changedOnly (chunks.flatMap (Chunk.changes old new)) := by
  fun_induction groupFrom context group chunks with
  | case1 group change =>
      rw [List.flatten_singleton]
      exact (List.append_nil _).symm
  | case2 group none =>
      rw [changedOnly_of_not_hasChange none]
      rfl
  | case3 group chunk rest long ih =>
      have kept : chunk.kept := (Bool.and_eq_true _ _ ▸ long).1
      have front : changedOnly ([chunk.takeFront context].flatMap (Chunk.changes old new)) = [] :=
        changedOnly_of_not_hasChange (by simpa [hasChange] using kept)
      have back : changedOnly ([chunk.takeBack context].flatMap (Chunk.changes old new)) = [] :=
        changedOnly_of_not_hasChange (by simpa [hasChange] using kept)
      rw [List.flatten_cons, List.flatMap_append, List.flatMap_append, changedOnly_append,
        changedOnly_append, front, List.append_nil, ih, back, changedOnly_flatMap_cons,
        changedOnly_changes_of_kept kept]
  | case4 group chunk rest short ih =>
      rw [ih, List.flatMap_append, changedOnly_append, List.append_assoc, ← changedOnly_append,
        ← List.flatMap_append, List.singleton_append]

/-- **The hunks show each changed line once**, in order, whatever the context.  The
context decides how many kept lines are shown around it and nothing else. -/
theorem changedOnly_hunks (old new : List Line) (context : Nat) (chunks : List Chunk) :
    changedOnly ((hunks context chunks).flatten.flatMap (Chunk.changes old new)) =
      changedOnly (chunks.flatMap (Chunk.changes old new)) := by
  rw [hunks, changedOnly_groupFrom, changedOnly_trimLast, changedOnly_trimFirst]
  rfl

end AliasHoist.Diff
