import AliasHoist.Proofs.Diff.Chunking

/-!
# Diffs account for every line

The changes between two texts are their lines, each once and in order, and each changed line is
counted and shown.

## Main Definitions

* `countTag`: how many lines have a tag.

## Main Statements

* `flatten_splitLines`: the lines of a text are the text;
* `changedOnly_allChanges_eq_nil_iff`: nothing changes just when the texts are the same;
* `unifiedDiff_eq_header_iff`: only then a unified diff has no hunks;
* `every_line_accounted`: the account of two texts.

### What is load-bearing

Lines keep their ends, so that texts with the same lines are the same (`flatten_splitLines`), and
equal texts have a single chunk, which is cut down to a context that no hunk is made of
(`hunks_of_kept`).
-/

namespace AliasHoist.Diff

/-! ## Lines of a text -/

/-- **The lines of a text are the text.**  Ends of lines belong to the lines, and the
last line may have none. -/
theorem flatten_splitLines (text : List Char) : (splitLines text).flatten = text := by
  fun_induction splitLines text with
  | case1 => rfl
  | case2 rest ih => rw [List.flatten_cons, ih]; rfl
  | case3 c rest other ends ih => rw [List.flatten_cons, ih]; rfl
  | case4 c rest other inside none ih =>
      rw [none] at ih
      rw [← ih]
      rfl
  | case5 c rest other inside line lines some ih =>
      rw [some] at ih
      rw [← ih]
      rfl

/-- The same for a string, of which the characters are taken. -/
theorem ofList_flatten_splitLines (text : String) :
    String.ofList (splitLines text.toList).flatten = text := by
  rw [flatten_splitLines, String.ofList_toList]

/-- Texts with the same lines are the same.  It lets texts be compared through their
lines, as the search for a script does. -/
theorem splitLines_eq_iff {old new : String} :
    splitLines old.toList = splitLines new.toList ↔ old = new := by
  constructor
  · intro same
    rw [← ofList_flatten_splitLines old, same, ofList_flatten_splitLines]
  · rintro rfl
    rfl

/-! ## Counts -/

/-- How many lines have a tag. -/
def countTag (tag : LineTag) (changes : List (LineTag × Line)) : Nat :=
  changes.countP fun change => change.1 = tag

theorem countTag_cons (tag tag' : LineTag) (line : Line) (rest : List (LineTag × Line)) :
    countTag tag ((tag', line) :: rest) = countTag tag rest + if tag' = tag then 1 else 0 := by
  simp [countTag, List.countP_cons]

/-- A line that is not kept counts among the changed lines as it does among all.  The
statistics go through all changes and the hunks through the changed ones, and they
agree. -/
theorem countTag_changedOnly {tag : LineTag} (ne : tag ≠ .kept) (changes : List (LineTag × Line)) :
    countTag tag (changedOnly changes) = countTag tag changes := by
  rw [countTag, countTag, changedOnly, List.countP_filter]
  congr 1
  funext change
  by_cases same : change.1 = tag
  · simp [same, ne]
  · simp [same]

/-- Each line has one of the three tags.  So the counts of two of them give that of the
third. -/
theorem length_eq_counts (changes : List (LineTag × Line)) :
    changes.length =
      countTag .kept changes + countTag .deleted changes + countTag .inserted changes := by
  induction changes with
  | nil => rfl
  | cons change rest ih =>
      obtain ⟨tag, line⟩ := change
      rw [countTag_cons, countTag_cons, countTag_cons, List.length_cons, ih]
      cases tag with
      | kept => simp only [if_pos, reduceCtorEq, if_false]; omega
      | deleted => simp only [if_pos, reduceCtorEq, if_false]; omega
      | inserted => simp only [if_pos, reduceCtorEq, if_false]; omega

theorem length_filter_ne (tag : LineTag) (changes : List (LineTag × Line)) :
    (changes.filter fun change => change.1 ≠ tag).length =
      changes.length - countTag tag changes := by
  have split := List.length_eq_countP_add_countP (fun change : LineTag × Line => change.1 = tag)
    (l := changes)
  rw [← List.countP_eq_length_filter, countTag, split]
  simp

theorem length_changedOnly (changes : List (LineTag × Line)) :
    (changedOnly changes).length = countTag .deleted changes + countTag .inserted changes := by
  rw [changedOnly, length_filter_ne, length_eq_counts]
  omega

/-- The old lines among changes are those that are kept or deleted. -/
theorem length_oldSide (changes : List (LineTag × Line)) :
    (oldSide changes).length = countTag .kept changes + countTag .deleted changes := by
  rw [oldSide, linesWithout, List.length_map, length_filter_ne, length_eq_counts]
  omega

/-- The new lines among changes are those that are kept or inserted. -/
theorem length_newSide (changes : List (LineTag × Line)) :
    (newSide changes).length = countTag .kept changes + countTag .inserted changes := by
  rw [newSide, linesWithout, List.length_map, length_filter_ne, length_eq_counts]
  omega

/-! ## Texts without changes -/

/-- Where every line is kept, the two sides are the same.  Only deleted and inserted
lines tell them apart. -/
theorem oldSide_eq_newSide {changes : List (LineTag × Line)} (h : changedOnly changes = []) :
    oldSide changes = newSide changes := by
  have kept : ∀ change ∈ changes, change.1 = .kept := by
    simpa [changedOnly] using h
  rw [oldSide, newSide, linesWithout, linesWithout]
  congr 1
  apply List.filter_congr
  intro change mem
  simp [kept change mem]

/-- **Two equal texts are one chunk**, unless they have no lines.  Whatever the context,
no hunk is made of it. -/
theorem chunksBetween_self (lines : List Line) :
    chunksBetween lines lines = [] ∨
      ∃ chunk, chunk.kept ∧ chunksBetween lines lines = [chunk] := by
  rw [chunksBetween, diff_self, keepStep]
  split
  · left
    rw [compact_of_kept _ _ (by simp)]
    rfl
  · right
    rw [compact_of_kept _ _ (by simp)]
    exact ⟨_, rfl, rfl⟩

/-- **Nothing changes just when the texts are the same.**  From left to right the two
texts are read off the changes, and from right to left there is one chunk. -/
theorem changedOnly_allChanges_eq_nil_iff (old new : List Line) :
    changedOnly (allChanges old new) = [] ↔ old = new := by
  constructor
  · intro none
    have same := oldSide_eq_newSide none
    rwa [oldSide_allChanges, newSide_allChanges] at same
  · rintro rfl
    rw [allChanges]
    rcases chunksBetween_self old with none | ⟨chunk, kept, only⟩
    · rw [none]
      rfl
    · rw [only, changedOnly_flatMap_cons, changedOnly_changes_of_kept kept]
      rfl

/-- **A file counts as changed just when its text has changed.**  The counter of a
command adds these up. -/
theorem filesChanged_eq_zero_iff (old new : String) :
    (DiffStats.between old new).filesChanged = 0 ↔ old = new := by
  have count := length_changedOnly (allChanges (splitLines old.toList) (splitLines new.toList))
  rw [← splitLines_eq_iff, ← changedOnly_allChanges_eq_nil_iff, ← List.length_eq_zero_iff, count]
  rw [DiffStats.between, DiffStats.ofChanges, countTag, countTag]
  dsimp only
  split
  · omega
  · omega

/-! ## Texts without hunks -/

/-- Kept lines that are cut down to the context make no hunk. -/
theorem hunks_of_kept (context : Nat) {chunk : Chunk} (kept : chunk.kept) :
    hunks context [chunk] = [] := by
  have short : ((chunk.takeBack context).takeFront context).oldLength ≤ context :=
    Nat.min_le_left ..
  rw [hunks, trimFirst, if_pos kept, trimLast, kept_takeBack, if_pos kept, groupFrom,
    if_neg (by simp only [Bool.and_eq_true, decide_eq_true_eq]; omega), groupFrom,
    if_neg (by simpa [hasChange] using kept)]

/-- A hunk has no text just when it shows no line.  A hunk that shows lines has a
heading at least. -/
theorem hunkText_eq_empty_iff (old new : List Line) (hunk : List Chunk) :
    hunkText old new hunk = "" ↔ hunk.flatMap (Chunk.changes old new) = [] := by
  rw [hunkText]
  cases hunk.flatMap (Chunk.changes old new) with
  | nil => simp
  | cons change rest =>
      constructor
      · intro empty
        have text := String.ofList_eq_empty_iff.mp (String.append_eq_empty_iff.mp empty).2
        rw [List.flatMap_cons, changeText, List.cons_append] at text
        exact absurd text (List.cons_ne_nil _ _)
      · intro none
        exact absurd none (List.cons_ne_nil _ _)

/-- Hunks without text show no line. -/
theorem flatMap_flatten_of_noText {old new : List Line} {hunks : List (List Chunk)}
    (h : ∀ hunk ∈ hunks, hunkText old new hunk = "") :
    hunks.flatten.flatMap (Chunk.changes old new) = [] := by
  rw [List.flatMap_eq_nil_iff]
  intro chunk mem
  obtain ⟨hunk, listed, mem⟩ := List.mem_flatten.mp mem
  have none := (hunkText_eq_empty_iff old new hunk).mp (h hunk listed)
  exact List.flatMap_eq_nil_iff.mp none chunk mem

theorem join_eq_empty_iff (texts : List String) :
    String.join texts = "" ↔ ∀ text ∈ texts, text = "" := by
  rw [← String.toList_eq_nil_iff, String.toList_join, List.flatMap_eq_nil_iff]
  simp only [String.toList_eq_nil_iff]

/-- **A unified diff is its header alone just when the texts are the same.**  A hunk
that is left has a line that has changed, and such a line is written. -/
theorem unifiedDiff_eq_header_iff (path old new : String) (context : Nat) :
    unifiedDiff path old new context = "--- " ++ path ++ "\n+++ " ++ path ++ "\n" ↔ old = new := by
  rw [unifiedDiff, String.append_eq_left_iff, join_eq_empty_iff, List.forall_mem_map]
  constructor
  · intro empty
    have changed := changedOnly_hunks (splitLines old.toList) (splitLines new.toList) context
      (chunksBetween (splitLines old.toList) (splitLines new.toList))
    rw [flatMap_flatten_of_noText empty] at changed
    exact splitLines_eq_iff.mp ((changedOnly_allChanges_eq_nil_iff _ _).mp changed.symm)
  · rintro rfl
    rcases chunksBetween_self (splitLines old.toList) with none | ⟨chunk, kept, only⟩
    · rw [none]
      exact List.forall_mem_nil _
    · rw [only, hunks_of_kept context kept]
      exact List.forall_mem_nil _

/-! ## The account -/

/-- **Every line is accounted for.**  The changes from one text to another are the lines of either,
so that their numbers agree; a file counts as changed, and its diff has hunks, just when its text
has changed; and the hunks show the lines that were counted, whatever the context. -/
theorem every_line_accounted (path old new : String) (context : Nat) :
    let oldLines := splitLines old.toList
    let newLines := splitLines new.toList
    let changes := allChanges oldLines newLines
    let stats := DiffStats.between old new
    let shown := (hunks context (chunksBetween oldLines newLines)).flatten.flatMap
      (Chunk.changes oldLines newLines)
    (String.ofList (oldSide changes).flatten = old ∧
      String.ofList (newSide changes).flatten = new) ∧
    (stats.linesRemoved ≤ oldLines.length ∧ stats.linesAdded ≤ newLines.length ∧
      oldLines.length - stats.linesRemoved = newLines.length - stats.linesAdded) ∧
    (stats.filesChanged = 0 ↔ old = new) ∧
    (unifiedDiff path old new context = "--- " ++ path ++ "\n+++ " ++ path ++ "\n" ↔ old = new) ∧
    countTag .inserted shown = stats.linesAdded ∧
    countTag .deleted shown = stats.linesRemoved := by
  intro oldLines newLines changes stats shown
  have oldLines_eq : oldSide changes = oldLines := oldSide_allChanges oldLines newLines
  have newLines_eq : newSide changes = newLines := newSide_allChanges oldLines newLines
  have shown_eq : changedOnly shown = changedOnly changes := changedOnly_hunks ..
  have removed : stats.linesRemoved = countTag .deleted changes := rfl
  have added : stats.linesAdded = countTag .inserted changes := rfl
  refine ⟨⟨?_, ?_⟩, ?_, filesChanged_eq_zero_iff old new,
    unifiedDiff_eq_header_iff path old new context, ?_, ?_⟩
  · rw [oldLines_eq, ofList_flatten_splitLines]
  · rw [newLines_eq, ofList_flatten_splitLines]
  · have countOld := length_oldSide changes
    have countNew := length_newSide changes
    rw [oldLines_eq] at countOld
    rw [newLines_eq] at countNew
    omega
  · rw [added, ← countTag_changedOnly (by decide), shown_eq, countTag_changedOnly (by decide)]
  · rw [removed, ← countTag_changedOnly (by decide), shown_eq, countTag_changedOnly (by decide)]

end AliasHoist.Diff
