import AliasHoist.Diff.Compact
import AliasHoist.Diff.Myers

/-!
# Unified diffs

The difference between two texts as people read it: changed lines with some lines of context around
them, in hunks.

## Main Definitions

* `Chunk`: kept lines, or a change that deletes lines and inserts others in their place;
* `chunksBetween`: the chunks between two texts;
* `hunks`: the chunks in groups, with at most a number of kept lines around the changes;
* `unifiedDiff`: the text of a diff;
* `DiffStats`: how many lines were added and removed.
-/

namespace AliasHoist.Diff

/-! ## Chunks -/

/-- Kept lines, or a change.  A change lists its deleted lines before its inserted ones. -/
structure Chunk where
  kept : Bool
  oldStart : Nat
  oldLength : Nat
  newStart : Nat
  newLength : Nat
  deriving DecidableEq, Repr

namespace Chunk

/-- The chunk of a single step. -/
def ofStep (step : Step) : Chunk where
  kept := step.kind = .keep
  oldStart := step.oldIndex
  oldLength := step.oldLength
  newStart := step.newIndex
  newLength := step.newLength

/-- A chunk with a step in front of it.  A change is named by its first deleted and its first
inserted line; where it has none of the one kind, the other kind says where it stands. -/
def extend (chunk : Chunk) (step : Step) : Chunk :=
  match step.kind with
  | .keep =>
      { chunk with
        oldStart := step.oldIndex, newStart := step.newIndex
        oldLength := step.length + chunk.oldLength, newLength := step.length + chunk.newLength }
  | .delete =>
      { chunk with
        oldStart := step.oldIndex, oldLength := step.length + chunk.oldLength
        newStart := if chunk.newLength = 0 then step.newIndex else chunk.newStart }
  | .insert =>
      { chunk with
        newStart := step.newIndex, newLength := step.length + chunk.newLength
        oldStart := if chunk.oldLength = 0 then step.oldIndex else chunk.oldStart }

/-- Kept lines without the first ones. -/
def dropFront (chunk : Chunk) (n : Nat) : Chunk :=
  { chunk with
    oldStart := chunk.oldStart + n, newStart := chunk.newStart + n
    oldLength := chunk.oldLength - n, newLength := chunk.newLength - n }

/-- The first of some kept lines. -/
def takeFront (chunk : Chunk) (n : Nat) : Chunk :=
  { chunk with oldLength := min n chunk.oldLength, newLength := min n chunk.newLength }

/-- The last of some kept lines. -/
def takeBack (chunk : Chunk) (n : Nat) : Chunk := chunk.dropFront (chunk.oldLength - n)

end Chunk

/-- **The chunks of an edit script**: neighbouring steps that keep lines are one chunk, and so are
neighbouring steps that change them. -/
def chunksOf : List Step → List Chunk
  | [] => []
  | step :: rest =>
      match chunksOf rest with
      | [] => [.ofStep step]
      | chunk :: chunks =>
          if chunk.kept = (step.kind = .keep) then chunk.extend step :: chunks
          else .ofStep step :: chunk :: chunks

/-- **The chunks between two texts**, given by their lines. -/
def chunksBetween (old new : List Line) : List Chunk :=
  chunksOf (compact old new (diff 0 0 old new))

/-! ## Changes line by line -/

/-- What happens to a line. -/
inductive LineTag where
  | kept
  | deleted
  | inserted
  deriving DecidableEq, Repr

/-- The mark in front of a line. -/
def LineTag.mark : LineTag → Char
  | kept => ' '
  | deleted => '-'
  | inserted => '+'

/-- The lines of a chunk. -/
def Chunk.changes (old new : List Line) (chunk : Chunk) : List (LineTag × Line) :=
  let oldLines := (old.drop chunk.oldStart).take chunk.oldLength
  let newLines := (new.drop chunk.newStart).take chunk.newLength
  if chunk.kept then oldLines.map (LineTag.kept, ·)
  else oldLines.map (LineTag.deleted, ·) ++ newLines.map (LineTag.inserted, ·)

/-- All lines of two texts, each with what happens to it. -/
def allChanges (old new : List Line) : List (LineTag × Line) :=
  (chunksBetween old new).flatMap (Chunk.changes old new)

/-! ## Statistics -/

/-- How much has changed. -/
structure DiffStats where
  filesChanged : Nat
  linesAdded : Nat
  linesRemoved : Nat
  deriving DecidableEq, Repr

namespace DiffStats

/-- No change. -/
def none : DiffStats := { filesChanged := 0, linesAdded := 0, linesRemoved := 0 }

/-- The statistics of two sets of files together. -/
def add (a b : DiffStats) : DiffStats where
  filesChanged := a.filesChanged + b.filesChanged
  linesAdded := a.linesAdded + b.linesAdded
  linesRemoved := a.linesRemoved + b.linesRemoved

/-- The statistics of one file: it counts as changed when any of its lines does. -/
def ofChanges (changes : List (LineTag × Line)) : DiffStats :=
  let added := changes.countP fun change => change.1 = .inserted
  let removed := changes.countP fun change => change.1 = .deleted
  { filesChanged := if 0 < added ∨ 0 < removed then 1 else 0
    linesAdded := added, linesRemoved := removed }

/-- The statistics of the change from one text to another. -/
def between (old new : String) : DiffStats :=
  ofChanges (allChanges (splitLines old.toList) (splitLines new.toList))

/-- The summary that is printed after a run. -/
def summary (stats : DiffStats) : String :=
  "\nSummary:\nFiles changed: " ++ toString stats.filesChanged ++ "\nLines added: " ++
    toString stats.linesAdded ++ "\nLines removed: " ++ toString stats.linesRemoved ++ "\n"

end DiffStats

/-! ## Hunks -/

/-- The chunks with the first one cut down to its last lines of context. -/
def trimFirst (context : Nat) : List Chunk → List Chunk
  | [] => []
  | chunk :: rest => (if chunk.kept then chunk.takeBack context else chunk) :: rest

/-- The chunks with the last one cut down to its first lines of context. -/
def trimLast (context : Nat) : List Chunk → List Chunk
  | [] => []
  | [chunk] => [if chunk.kept then chunk.takeFront context else chunk]
  | chunk :: rest => chunk :: trimLast context rest

/-- Whether a group of chunks changes anything. -/
def hasChange : List Chunk → Bool
  | [] => false
  | [chunk] => !chunk.kept
  | _ => true

/-- Ends a group wherever more lines are kept than two contexts need. -/
def groupFrom (context : Nat) (group : List Chunk) : List Chunk → List (List Chunk)
  | [] => if hasChange group then [group] else []
  | chunk :: rest =>
      if chunk.kept && 2 * context < chunk.oldLength then
        (group ++ [chunk.takeFront context]) :: groupFrom context [chunk.takeBack context] rest
      else groupFrom context (group ++ [chunk]) rest

/-- **The hunks of a diff.** -/
def hunks (context : Nat) (chunks : List Chunk) : List (List Chunk) :=
  groupFrom context [] (trimLast context (trimFirst context chunks))

/-- The lines from one place to another as a hunk names them: the first line, counted from one, and
their number.  A single line goes without a number, and no line at all is named by the one
before. -/
def rangeText (start stop : Nat) : String :=
  let length := stop - start
  if length = 1 then toString (start + 1)
  else if length = 0 then toString start ++ ",0"
  else toString (start + 1) ++ "," ++ toString length

/-- The first line of a hunk. -/
def hunkHeader (hunk : List Chunk) : String :=
  match hunk.head?, hunk.getLast? with
  | some first, some last =>
      "@@ -" ++ rangeText first.oldStart (last.oldStart + last.oldLength) ++
        " +" ++ rangeText first.newStart (last.newStart + last.newLength) ++ " @@\n"
  | _, _ => ""

/-- A line of a hunk.  A line without an end is followed by a remark. -/
def changeText (change : LineTag × Line) : List Char :=
  change.1.mark :: (change.2 ++
    if endsLine change.2 then [] else "\n\\ No newline at end of file\n".toList)

/-- The text of a hunk, empty when it has no lines. -/
def hunkText (old new : List Line) (hunk : List Chunk) : String :=
  match hunk.flatMap (Chunk.changes old new) with
  | [] => ""
  | changes => hunkHeader hunk ++ String.ofList (changes.flatMap changeText)

/-- **The unified diff of two texts**, with a number of lines of context. -/
def unifiedDiff (path old new : String) (context : Nat) : String :=
  let oldLines := splitLines old.toList
  let newLines := splitLines new.toList
  "--- " ++ path ++ "\n+++ " ++ path ++ "\n" ++
    String.join ((hunks context (chunksBetween oldLines newLines)).map (hunkText oldLines newLines))

/-- What is printed for a changed file, nothing for an unchanged one. -/
def diffReport (path old new : String) : String :=
  if (DiffStats.between old new).filesChanged = 0 then "" else unifiedDiff path old new 3

/-- One line for a changed file, and one for each alias that it gained. -/
def summaryReport (path old new : String) (aliases : List String) : String :=
  let stats := DiffStats.between old new
  if stats.filesChanged = 0 then ""
  else
    path ++ " (+" ++ toString stats.linesAdded ++ " -" ++ toString stats.linesRemoved ++ ")\n" ++
      String.join (aliases.map fun name => "  + type " ++ name ++ "\n")

end AliasHoist.Diff
