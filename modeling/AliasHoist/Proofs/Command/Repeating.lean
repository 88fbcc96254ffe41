import AliasHoist.Proofs.Command.Trying
import AliasHoist.Proofs.Runs.Forgetting

/-!
# Files that are given more than once

Nothing keeps a run from being given one file under two names: `a.ts` and `./a.ts` are different paths, and
each of them is fixed when its turn comes.  Every time there is something to fix, the content of that
moment is kept, and always under the same name, because backups are named after canonical paths.  So the
content that stays is the one from before the last fix of the file, while the file itself began with the
one from before the first.

Most runs never see the difference.  Once nothing is left to fix in a file, giving it again changes
nothing; it takes a run that stops before that, at its limit of passes, for a second name to matter.

There are no links in these file systems.  A symbolic link to a file is one more name of it: its canonical
path is that of the file, and reading and writing it read and write the file.  So a run that is given both
does to the files what it does when it is given the file twice.

## Main Definitions

* `attemptOn`: what is known of one attempt to rewrite a file;
* `lastNamed`, `firstAt`: the last attempt that keeps a backup of some name, the first one on a file;
* `FilesRepeated`: what has become of files that may have been given more than once;
* `RewritesOutside`: a run on files outside the state directory, each given as often as one likes;
* `RunsThrough`: what such a run does.

## Main Statements

* `FilesRepeated.append`: what a further attempt adds;
* `FilesRepeated.exists_concat`: one more file;
* `exists_filesRepeated`: all files of a run, however often each is given and whichever writes fail;
* `RewritesOutside.exists_runsThrough`: a whole run, up to its record;
* `RunsThrough.keeps_others`, `RunsThrough.inStep_perform`: what that means for the runs before it.

## What is load-bearing

The directory of the run is made by the first attempt, and no other directory is made after that
(`FilesRepeated.changes`).  Seen from there, what a run does before it is recorded is to write files, and
a frame over written files is all that the statements about later commands need.
-/

namespace AliasHoist.Command

open FileSystem

variable {state : Path} {recording : Recording} {run : InPlaceRun}
  {fs before middle after : FileSystem} {files : List Path} {path : Path}
  {items new : List Restoration} {item : Restoration} {changes : List FileChange}
  {change : FileChange} {runs : List Run} {name : String} {location : Location} {tally : FixTally}

/-! ## Attempts -/

/-- What is known of an attempt to rewrite a file: the change that is recorded for it,
where the file is, and the content that was kept.  Its digests and its backup are
functions of these, so an attempt is known once its path and its source are. -/
def attemptOn (fs : FileSystem) (path : Path) (source : HoistedSource) : Restoration where
  change := changeOf (pathOf (fs.placeOf path)) source
  location := fs.placeOf path
  before := source.before

/-- The last attempt that keeps a backup of a given name.  It is the one whose content
stays.  Names are compared and not locations, because all backups of a run are in one
directory. -/
def lastNamed (items : List Restoration) (name : String) : Option Restoration :=
  items.reverse.find? (·.change.backup == name)

/-- The first attempt on the file at a given location.  It is the one that finds the
file as it was.  The other attempts on the file find what an earlier one has left. -/
def firstAt (items : List Restoration) (location : Location) : Option Restoration :=
  items.find? (·.location == location)

/-- A later attempt under the name is preferred to an earlier one. -/
theorem lastNamed_append (items new : List Restoration) (name : String) :
    lastNamed (items ++ new) name = (lastNamed new name).or (lastNamed items name) := by
  rw [lastNamed, List.reverse_append, List.find?_append, lastNamed, lastNamed]

/-- With the first attempt it is the other way round. -/
theorem firstAt_append (items new : List Restoration) (location : Location) :
    firstAt (items ++ new) location = (firstAt items location).or (firstAt new location) :=
  List.find?_append

/-- It is an attempt of the run, and the name is that of its backup. -/
theorem backup_of_lastNamed (h : lastNamed items name = some item) :
    item ∈ items ∧ item.change.backup = name :=
  ⟨List.mem_reverse.mp (List.mem_of_find?_eq_some h), by simpa using List.find?_some h⟩

/-- It is an attempt of the run, on the file at that location. -/
theorem location_of_firstAt (h : firstAt items location = some item) :
    item ∈ items ∧ item.location = location :=
  ⟨List.mem_of_find?_eq_some h, by simpa using List.find?_some h⟩

/-- The locations that are written depend on the files only through the working
directory. -/
theorem triedLocations_congr (changes : before.workingDirectory = middle.workingDirectory) :
    triedLocations recording items before = triedLocations recording items middle := by
  rw [triedLocations, placeOf_of_workingDirectory_eq changes, triedLocations]

/-- More attempts write more locations. -/
theorem triedLocations_mono {others : List Restoration} (h : items ⊆ others) :
    triedLocations recording items before ⊆ triedLocations recording others before := by
  rintro location ⟨item, mem, there⟩
  exact ⟨item, h mem, there⟩

/-! ## What becomes of the files -/

/-- **What has become of files that may have been given more than once.**  The first
attempt on a file found what was there before, and the last attempt under the name of a
backup left its content there.  For every other attempt less is known: it found what the
one before it on the same file has written, and its backup has been overwritten. -/
structure FilesRepeated (recording : Recording) (files : List Path) (items : List Restoration)
    (before after : FileSystem) : Prop where
  attempts : ∀ item ∈ items, ∃ path ∈ files, ∃ source, item = attemptOn before path source
  found : ∀ location item, firstAt items location = some item →
    ∃ writable, before.entryAt? location = some (.file (.text item.before) writable)
  kept : ∀ name item, lastNamed items name = some item →
    KeepsBackup recording.state recording.id name item.before after
  /-- Nothing has happened yet, or the directory of the run has been opened. -/
  changes : items = [] ∧ after = before ∨
    Changes (triedLocations recording items before) ∅ (opened recording.state recording.id before) after
  ready : items ≠ [] → IsReady (recording.state.child recording.id) after

namespace FilesRepeated

/-- Of no files nothing has become. -/
theorem nil : FilesRepeated recording [] [] before before where
  attempts := by simp
  found := by simp [firstAt]
  kept := by simp [lastNamed]
  changes := .inl ⟨rfl, rfl⟩
  ready := by simp

/-- A file that there is nothing to fix in is as if it had not been given.  The files
only say where attempts can come from. -/
theorem mono {more : List Path} (h : FilesRepeated recording files items before after)
    (subset : files ⊆ more) : FilesRepeated recording more items before after where
  attempts := by
    intro item mem
    obtain ⟨path, hpath, source, same⟩ := h.attempts item mem
    exact ⟨path, subset hpath, source, same⟩
  found := h.found
  kept := h.kept
  changes := h.changes
  ready := h.ready

variable (h : FilesRepeated recording files items before middle)
include h

/-- In any case, what attempts write are their files and backups. -/
theorem changes_univ :
    Changes (triedLocations recording items before) Set.univ before middle := by
  rcases h.changes with ⟨-, rfl⟩ | changes
  · exact .refl _
  · exact ((opened_changes recording.state recording.id before).mono (Set.empty_subset _)
      subset_rfl).trans (changes.mono subset_rfl (Set.empty_subset _))

/-- Opening the directory of the run once more makes nothing new.  So what was proved of
one attempt from its own beginning can be seen from the beginning of the run. -/
theorem changes_opened
    (opens : (before.makeDirectories (recording.state.child recording.id)).2 = .ok ()) :
    Changes (triedLocations recording items before) ∅
      (opened recording.state recording.id before) (opened recording.state recording.id middle) := by
  rcases h.changes with ⟨-, rfl⟩ | changes
  · exact .refl _
  · have made : before.makeDirectories (recording.state.child recording.id) =
        (opened recording.state recording.id before, .ok ()) := Prod.ext rfl opens
    have again := makeDirectories_again made changes
    have same : opened recording.state recording.id middle = middle := congrArg Prod.fst again
    rw [same]
    exact changes

/-- No attempt was on a file of the state directory.  Places do not move while a run is
at work. -/
theorem outside_of_mem
    (outside : ∀ path ∈ files, ¬ before.placeOf recording.state <+: before.placeOf path)
    (mem : item ∈ items) : ¬ before.placeOf recording.state <+: item.location := by
  obtain ⟨path, hpath, source, rfl⟩ := h.attempts item mem
  exact outside path hpath

/-- A file on which there was no attempt is as it was.  Backups do not count, as the
location is outside the state directory. -/
theorem fileAt?_eq_of_firstAt
    (outside : ¬ before.placeOf recording.state <+: location) (none : firstAt items location = none) :
    middle.fileAt? location = before.fileAt? location := by
  refine h.changes_univ.fileAt?_eq ?_
  rintro ⟨item, mem, same | same⟩
  · have apart := List.find?_eq_none.mp none item mem
    exact apart (by simp [same])
  · exact outside (same ▸ List.prefix_append _ _)

/-- **Further attempts**, on files of which some may have been tried before.  What they
keep replaces what was kept under the same names, and all other backups stay.  The proof
goes through the fields: a first attempt is one of the old ones if there was any on the
file, and a last one is one of the new ones if there is any of the name. -/
theorem append (opens : (before.makeDirectories (recording.state.child recording.id)).2 = .ok ())
    (attempts : ∀ item ∈ new, ∃ source, item = attemptOn before path source)
    (outside : ∀ other ∈ files ++ [path], ¬ before.placeOf recording.state <+: before.placeOf other)
    (tried : FilesTried recording new middle after)
    (changes : Changes (triedLocations recording new middle) ∅
      (opened recording.state recording.id middle) after) :
    FilesRepeated recording (files ++ [path]) (items ++ new) before after := by
  have place := h.changes_univ.placeOf recording.state
  have alike : triedLocations recording new middle = triedLocations recording new before :=
    triedLocations_congr h.changes_univ.workingDirectory_eq
  have apart : ∀ item ∈ new, ¬ before.placeOf recording.state <+: item.location := by
    intro item mem
    obtain ⟨source, rfl⟩ := attempts item mem
    exact outside path (by simp)
  constructor
  · intro item mem
    rcases List.mem_append.mp mem with old | added
    · obtain ⟨other, hother, source, same⟩ := h.attempts item old
      exact ⟨other, List.mem_append_left _ hother, source, same⟩
    · obtain ⟨source, same⟩ := attempts item added
      exact ⟨path, by simp, source, same⟩
  · intro location item first
    rw [firstAt_append] at first
    cases earlier : firstAt items location with
    | some old =>
        rw [earlier, Option.some_or, Option.some.injEq] at first
        exact h.found location item (first ▸ earlier)
    | none =>
        rw [earlier, Option.none_or] at first
        obtain ⟨mem, rfl⟩ := location_of_firstAt first
        -- nothing was tried there before, so this attempt found what the run began with
        have untouched := h.fileAt?_eq_of_firstAt (apart item mem) earlier
        have held : ∃ writable,
            middle.entryAt? item.location = some (.file (.text item.before) writable) := by
          cases tried.tried item mem with
          | rewritten free => exact ⟨true, free⟩
          | locked locked => exact ⟨false, locked⟩
        obtain ⟨writable, held⟩ := held
        rw [← fileAt?_eq_some_iff, untouched, fileAt?_eq_some_iff] at held
        exact ⟨writable, held⟩
  · intro name item last
    rw [lastNamed_append] at last
    cases later : lastNamed new name with
    | some newest =>
        rw [later, Option.some_or, Option.some.injEq] at last
        subst last
        obtain ⟨mem, rfl⟩ := backup_of_lastNamed later
        exact tried.kept newest mem
    | none =>
        rw [later, Option.none_or] at last
        refine (h.kept name item last).of_changes tried.changes ?_
        rintro ⟨other, mem, same | same⟩
        · exact apart other mem (place ▸ same ▸ List.prefix_append _ _)
        · have ne := List.find?_eq_none.mp later other (List.mem_reverse.mpr mem)
          have named : name = other.change.backup := by simpa using same
          exact ne (by simp [named])
  · rw [alike] at changes
    exact .inr (((h.changes_opened opens).mono (triedLocations_mono (List.subset_append_left _ _))
      subset_rfl).trans (changes.mono (triedLocations_mono (List.subset_append_right _ _)) subset_rfl))
  · intro something
    by_cases none : new = []
    · refine (h.ready ?_).of_changes tried.changes
      simpa [none] using something
    · exact tried.ready none

end FilesRepeated

/-! ## All files of a run -/

/-- **One more file**, whether or not it has been given before.  The file is fixed as it
is now, and the backup is that of what it holds now. -/
theorem FilesRepeated.exists_concat (h : FilesRepeated run.recording files items before middle)
    (isRunId : IsRunId run.id)
    (opens : (before.makeDirectories (run.recording.state.child run.recording.id)).2 = .ok ())
    (outside : ∀ other ∈ files ++ [path],
      ¬ before.placeOf run.recording.state <+: before.placeOf other) :
    ∃ new result after, (fixFile run.plan tally path).on middle = (.ok result, after) ∧
      result.changes = tally.changes ++ new.map (·.change) ∧
      FilesRepeated run.recording (files ++ [path]) (items ++ new) before after := by
  have places := h.changes_univ.placeOf
  have unfixed : FilesRepeated run.recording (files ++ [path]) (items ++ []) before middle := by
    rw [List.append_nil]
    exact h.mono (List.subset_append_left _ _)
  rcases on_fixFile_cases run.plan tally path middle with
    ⟨source, hoists, -, fixed⟩ | ⟨-, -, same⟩ | ⟨-, -, failed⟩
  · obtain ⟨location, writable, read⟩ := readText_eq_ok_iff.mp (readText_of_hoisted hoists)
    obtain rfl := eq_placeOf_of_stat read
    have apart : ¬ middle.placeOf run.recording.state <+: middle.placeOf path := by
      rw [places, places]
      exact outside path (by simp)
    obtain ⟨new, result, after, delivered, which, recorded, tried, changes⟩ :=
      exists_deliver_tried (tally.count run.plan.format source) isRunId read apart
    refine ⟨new, result, after, fixed.trans delivered, recorded,
      h.append opens (fun item mem => ⟨source, ?_⟩) outside tried changes⟩
    rcases which with rfl | rfl
    · simp at mem
    · rw [List.mem_singleton.mp mem, attemptOn, places]
  · exact ⟨[], tally, middle, same, by simp, unfixed⟩
  · exact ⟨[], tally.fail, middle, failed, by simp [FixTally.fail], unfixed⟩

/-- **All files of a run**, however often each of them is given and whichever of the
writes fail.  What is recorded is one change for each attempt, in order.  An induction
from the end, with `FilesRepeated.exists_concat` as its step. -/
theorem exists_filesRepeated (isRunId : IsRunId run.id)
    (opens : (before.makeDirectories (run.recording.state.child run.recording.id)).2 = .ok ())
    (outside : ∀ path ∈ files, ¬ before.placeOf run.recording.state <+: before.placeOf path) :
    ∃ items tally middle, (fixEach run.plan {} files).on before = (.ok tally, middle) ∧
      tally.changes = items.map (·.change) ∧
      FilesRepeated run.recording files items before middle := by
  induction files using List.reverseRecOn with
  | nil => exact ⟨[], {}, before, rfl, rfl, .nil⟩
  | append_singleton rest path ih =>
      obtain ⟨items, tally, middle, each, recorded, repeated⟩ :=
        ih fun other mem => outside other (List.mem_append_left _ mem)
      obtain ⟨new, result, after, step, added, repeated'⟩ :=
        repeated.exists_concat isRunId opens outside
      refine ⟨items ++ new, result, after, (on_fixEach_concat each).trans step, ?_, repeated'⟩
      rw [added, recorded, List.map_append]

/-! ## A whole run -/

/-- **A run that rewrites files outside the state directory** and has something to record.  The files need
not be different ones, and their writes may fail: what is asked for is that every path names something,
that the directory of the run can be made, and that the run can be recorded. -/
structure RewritesOutside (state : Path) (run : InPlaceRun) (changes : List FileChange)
    (fs : FileSystem) : Prop where
  state_eq : run.recording.state = state
  isRunId : IsRunId run.id
  /-- The time of the run is one of the calendar. -/
  time : run.recording.time.isWritable = true
  outside : ∀ path ∈ run.files, ¬ fs.placeOf state <+: fs.placeOf path
  /-- Every path has a canonical form, which names the same. -/
  resolves : ∀ path ∈ run.files, ∃ absolute, fs.canonical path = .ok absolute ∧
    fs.stat absolute = fs.stat path
  /-- The directory of the run can be made. -/
  opens : (fs.makeDirectories (state.child run.id)).2 = .ok ()
  something : changes ≠ []
  /-- Fixes are counted in 64 bits. -/
  counts : ∀ change ∈ changes, change.fixesApplied < 2 ^ 64
  /-- These are the changes, and recording them does not fail at a write. -/
  tries : ∃ tally middle, (fixEach run.plan {} run.files).on fs = (.ok tally, middle) ∧
    tally.changes = changes ∧ failsToWrite (conclude run.plan.delivery tally) middle = false

/-- A run that can be undone rewrites files outside the state directory, each of them
once.  So everything below also holds of the runs that can be undone. -/
theorem IsUndoable.rewritesOutside (h : IsUndoable state run fs)
    (opens : (fs.makeDirectories (state.child run.id)).2 = .ok ()) :
    RewritesOutside state run (run.changes fs) fs := by
  obtain rfl := h.state_eq
  have inPlace : run.plan.delivery = .inPlace run.recording := rfl
  obtain ⟨tally, middle, each, fixed, records⟩ :=
    Command.exists_filesFixed inPlace h.isRunId h.apart h.writes
  refine ⟨rfl, h.isRunId, h.time, h.apart.outside, fun path mem => ?_, opens, h.rewrites, h.counts,
    tally, middle, each, ?_, records⟩
  · obtain ⟨absolute, named⟩ := h.apart.named path mem
    exact ⟨absolute, named, h.resolves path mem absolute named⟩
  · rw [fixed.changes_eq]
    rfl

/-- **What a run does**, given the attempts that it makes and the files just before it
is recorded.  The last two fields cut the run where it is recorded: before that it
writes files and backups, after that its record and the index. -/
structure RunsThrough (state : Path) (runs : List Run) (run : InPlaceRun) (changes : List FileChange)
    (items : List Restoration) (before middle : FileSystem) : Prop where
  changes_eq : changes = items.map (·.change)
  repeated : FilesRepeated run.recording run.files items before middle
  written : Changes (triedLocations run.recording items before) ∅ (opened state run.id before) middle
  inStep : KeptInStep state runs middle
  isRecorded : run.IsRecorded changes before
  recorded : Changes (recordSlots (before.placeOf state) run.id) ∅ middle (run.perform before)
  stored : Stored state (run.id ++ ".json") (run.recording.run changes).toJson.pretty
    (run.perform before)
  listed : Stored state "runs.json"
    ((RunIndex.ofRuns runs).add (run.recording.run changes)).toJson.pretty (run.perform before)

namespace RewritesOutside

variable (h : RewritesOutside state run changes before)
include h

/-- No file of the run is in the state directory, nor is the file that a change of it
names.  The record names a file by its canonical path, and this is where that leads. -/
theorem source_of_attemptOn {path : Path} (mem : path ∈ run.files) (source : HoistedSource) :
    before.placeOf (attemptOn before path source).change.path =
      (attemptOn before path source).location ∧
    before.stat (attemptOn before path source).change.path = before.stat path := by
  obtain ⟨absolute, canonical, resolved⟩ := h.resolves path mem
  obtain ⟨location, entry, found, rfl⟩ := canonical_eq_ok_iff.mp canonical
  obtain rfl := eq_placeOf_of_stat found
  exact ⟨(eq_placeOf_of_stat (resolved.trans found)).symm, resolved⟩

/-- **What one run does**, when the runs that were recorded before are in step: its
index can be read then, so recording it succeeds.  In a directory whose index cannot be
read it would fail, with the files rewritten. -/
theorem exists_runsThrough (inStep : KeptInStep state runs (opened state run.id before)) :
    ∃ items middle, RunsThrough state runs run changes items before middle := by
  obtain rfl := h.state_eq
  have inPlace : run.plan.delivery = .inPlace run.recording := rfl
  obtain ⟨tally, middle, each, rfl, records⟩ := h.tries
  obtain ⟨items, tally', middle', each', changes_eq, repeated⟩ :=
    exists_filesRepeated h.isRunId h.opens h.outside
  obtain ⟨rfl, rfl⟩ : tally' = tally ∧ middle' = middle := by simpa [each] using each'.symm
  have something : items ≠ [] := by
    rintro rfl
    exact h.something changes_eq
  have written := repeated.changes.resolve_left fun ⟨nothing, _⟩ => something nothing
  have place := (opened_changes run.recording.state run.recording.id before).placeOf
  -- no file of the run is a record, so the runs are in step until it is recorded
  have still : KeptInStep run.recording.state runs middle' := by
    refine inStep.of_keeps (Keeps.of_changes written) (inStep.ready.of_changes written) ?_
    rw [Set.union_empty]
    rintro name ⟨item, mem, same | same⟩
    · refine repeated.outside_of_mem h.outside mem ?_
      exact place _ ▸ same ▸ List.prefix_append _ _
    · exact absurd (place _ ▸ same) (by simp)
  rcases hsettle : (settleRun run.plan tally').on middle' with ⟨outcome, after⟩
  have performed : run.perform before = after := by
    rw [InPlaceRun.perform, on_fixFiles (by simp [inPlace]), each]
    dsimp only
    rw [hsettle]
  obtain ⟨saved, hsave, fails, -⟩ := exists_save_of_settleRun inPlace h.something records hsettle
  rw [← performed] at hsave
  obtain ⟨stored, listed⟩ := Run.save_spec still.ready (run.recording.run tally'.changes) h.isRunId hsave
    fun reason failed => (fails reason failed).1
  obtain ⟨rfl, relisted⟩ := listed _ still.ofEntry
  have recorded := Run.save_changes still.ready (run.recording.run tally'.changes) h.isRunId
  rw [hsave, repeated.changes_univ.placeOf] at recorded
  exact ⟨items, middle', changes_eq, repeated, written, still,
    ⟨h.something, tally', middle', each, rfl, by rw [hsave]⟩, recorded, stored, relisted⟩

end RewritesOutside

namespace RunsThrough

variable (h : RunsThrough state runs run changes items before middle)
include h

/-- Runs do not move places. -/
theorem placeOf_perform (path : Path) : (run.perform before).placeOf path = before.placeOf path := by
  rw [h.recorded.placeOf, h.repeated.changes_univ.placeOf]

variable (rewrites : RewritesOutside state run changes before)
include rewrites

/-- A run leaves the backups of other runs, once its directory has been made.  It writes
in its own directory and outside the state directory, and its record is in the directory
of no run. -/
theorem keeps_others (ids : ∀ record ∈ runs, IsRunId record.id)
    (fresh : run.id ∉ runs.map (·.id)) :
    Keeps (outsideBackups (before.placeOf state) runs) (opened state run.id before)
      (run.perform before) := by
  refine ((Keeps.of_changes h.written).mono ?_).trans ((Keeps.of_changes h.recorded).mono ?_)
  · rw [Set.union_empty]
    rintro location ⟨item, mem, rfl | rfl⟩
    · intro record _ below
      have outside := h.repeated.outside_of_mem (rewrites.state_eq ▸ rewrites.outside) mem
      exact outside (rewrites.state_eq ▸ (List.prefix_append _ _).trans below)
    · rw [rewrites.state_eq]
      exact mem_outsideBackups_of_ne [item.change.backup] fun record hrecord same =>
        fresh (List.mem_map.mpr ⟨record, hrecord, same⟩)
  · rw [Set.union_empty]
    exact recordSlots_subset_outsideBackups ids _

/-- The sources of a run are where its files were.  So undoing it cannot overwrite a
record or a backup. -/
theorem outside_source (mem : change ∈ changes) :
    ¬ before.placeOf state <+: before.placeOf change.path := by
  rw [h.changes_eq] at mem
  obtain ⟨item, hitem, rfl⟩ := List.mem_map.mp mem
  obtain ⟨path, hpath, source, rfl⟩ := h.repeated.attempts item hitem
  rw [(rewrites.source_of_attemptOn hpath _).1]
  exact rewrites.outside path hpath

/-- **One more run is in step with the others.**  It is recorded in a directory that is
in step, and its identifier is new. -/
theorem inStep_perform (fresh : run.id ∉ runs.map (·.id)) :
    KeptInStep state (runs ++ [run.recording.run changes]) (run.perform before) := by
  have storable : (run.recording.run changes).isStorable = true := by
    simpa [Run.isStorable, Recording.run, rewrites.time] using rewrites.counts
  have keepable : IsKeepable state (run.recording.run changes) middle := by
    refine ⟨rewrites.isRunId, storable, by simp [Recording.run], fun change mem name same => ?_⟩
    rw [h.repeated.changes_univ.placeOf, h.repeated.changes_univ.placeOf] at same
    exact h.outside_source rewrites mem (same ▸ List.prefix_append _ _)
  have recorded := h.recorded
  have listed := h.listed
  rw [RunIndex.add_ofRuns_new fresh] at listed
  rw [← h.repeated.changes_univ.placeOf] at recorded
  exact h.inStep.of_recorded keepable (nodup_append_new h.inStep.nodup fresh) (mem_append_new fresh)
    recorded h.stored listed

end RunsThrough

/-- The first attempt on a file found what its path read as when the run began.
Whatever the run does to the file later, this is what it began with. -/
theorem RewritesOutside.readText_of_first (h : RewritesOutside state run changes before)
    (repeated : FilesRepeated run.recording run.files items before middle) {path : Path}
    (first : items.find? (·.change.path == path) = some item) :
    before.readText path = .ok item.before := by
  obtain ⟨named, front, back, split, others⟩ := List.find?_eq_some_iff_append.mp first
  have mem : item ∈ items := by simp [split]
  obtain rfl : item.change.path = path := by simpa using named
  obtain ⟨given, hgiven, source, rfl⟩ := repeated.attempts item mem
  obtain ⟨place, resolved⟩ := h.source_of_attemptOn hgiven source
  -- attempts at one location are on one path
  have apart : ∀ other ∈ front, other.location ≠ (attemptOn before given source).location := by
    intro other hother same
    obtain ⟨given', -, source', rfl⟩ := repeated.attempts other (by simp [split, hother])
    refine absurd (others _ hother) ?_
    simpa [attemptOn, changeOf] using congrArg pathOf same
  have firstAt : firstAt items (attemptOn before given source).location =
      some (attemptOn before given source) :=
    List.find?_eq_some_iff_append.mpr ⟨by simp, front, back, split, by simpa using apart⟩
  obtain ⟨writable, held⟩ := repeated.found _ _ firstAt
  obtain ⟨absolute, canonical, -⟩ := h.resolves given hgiven
  obtain ⟨location, entry, found, -⟩ := canonical_eq_ok_iff.mp canonical
  obtain rfl := eq_placeOf_of_stat found
  have same : some entry = some (.file (.text source.before) writable) :=
    (stat_eq_ok_iff.mp found).2.1.symm.trans held
  rw [Option.some.inj same] at found
  exact readText_eq_ok_iff.mpr ⟨_, writable, resolved.trans found⟩

end AliasHoist.Command

namespace AliasHoist.Specimen

open Command FileSystem

/-! ## A file that is given twice -/

/-- A literal with another one below it, which is left when a run has one pass only. -/
def layeredSource : String := "let a: \x7b\n [k((p1: \x7b\n q: 1 \x7d) => 1)]: 1 \x7d;\n"

/-- The source after one pass. -/
def outerHoisted : String :=
  "type AType = \x7b\n [k((p1: \x7b\n q: 1 \x7d) => 1)]: 1 \x7d;\n\nlet a: AType;\n"

/-- The source after two passes. -/
def bothHoisted : String :=
  "type P1Type = \x7b\n q: 1 \x7d;\n\ntype AType = \x7b\n [k((p1: P1Type) => 1)]: 1 \x7d;\n\nlet a: AType;\n"

/-- What the parser says about the inner literal.  It occurs three times, at different
places. -/
def innerRaw (field : Option String) (start : Nat) : RawTree :=
  branch "object_type" field start (start + 9) [
    token "\x7b" none start (start + 1),
    branch "property_signature" none (start + 3) (start + 7) [
      branch "property_identifier" (some "name") (start + 3) (start + 4) [],
      branch "type_annotation" (some "type") (start + 4) (start + 7) [
        token ":" none (start + 4) (start + 5),
        branch "literal_type" none (start + 6) (start + 7) [
          branch "number" none (start + 6) (start + 7) []]]],
    token "\x7d" none (start + 8) (start + 9)]

/-- What the parser says about the outer literal, given the type of the parameter in it and its width. -/
def outerRaw (field : Option String) (start width : Nat) (type : RawTree) : RawTree :=
  branch "object_type" field start (start + width + 24) [
    token "\x7b" none start (start + 1),
    branch "property_signature" none (start + 3) (start + width + 22) [
      branch "computed_property_name" (some "name") (start + 3) (start + width + 19) [
        token "[" none (start + 3) (start + 4),
        branch "call_expression" none (start + 4) (start + width + 18) [
          branch "identifier" (some "function") (start + 4) (start + 5) [],
          branch "arguments" (some "arguments") (start + 5) (start + width + 18) [
            token "(" none (start + 5) (start + 6),
            branch "arrow_function" none (start + 6) (start + width + 17) [
              branch "formal_parameters" (some "parameters") (start + 6) (start + width + 12) [
                token "(" none (start + 6) (start + 7),
                branch "required_parameter" none (start + 7) (start + width + 11) [
                  branch "identifier" (some "pattern") (start + 7) (start + 9) [],
                  branch "type_annotation" (some "type") (start + 9) (start + width + 11) [
                    token ":" none (start + 9) (start + 10),
                    type]],
                token ")" none (start + width + 11) (start + width + 12)],
              token "=>" none (start + width + 13) (start + width + 15),
              branch "number" (some "body") (start + width + 16) (start + width + 17) []],
            token ")" none (start + width + 17) (start + width + 18)]],
        token "]" none (start + width + 18) (start + width + 19)],
      branch "type_annotation" (some "type") (start + width + 19) (start + width + 22) [
        token ":" none (start + width + 19) (start + width + 20),
        branch "literal_type" none (start + width + 21) (start + width + 22) [
          branch "number" none (start + width + 21) (start + width + 22) []]]],
    token "\x7d" none (start + width + 23) (start + width + 24)]

/-- What the parser says about an alias, given its literal and the end of its name. -/
def aliasRaw (start name stop : Nat) (literal : RawTree) : RawTree :=
  branch "type_alias_declaration" none start (stop + 1) [
    token "type" none start (start + 4),
    branch "type_identifier" (some "name") (start + 5) name [],
    token "=" none (name + 1) (name + 2),
    literal,
    token ";" none stop (stop + 1)]

/-- What the parser says about a variable, given its type and the end of that. -/
def variableRaw (start stop : Nat) (type : RawTree) : RawTree :=
  branch "lexical_declaration" none start (stop + 1) [
    token "let" (some "kind") start (start + 3),
    branch "variable_declarator" none (start + 4) stop [
      branch "identifier" (some "name") (start + 4) (start + 5) [],
      branch "type_annotation" (some "type") (start + 5) stop [
        token ":" none (start + 5) (start + 6),
        type]],
    token ";" none stop (stop + 1)]

/-- What the parser says about `layeredSource`. -/
def layeredRaw : RawTree :=
  branch "program" none 0 42 [variableRaw 0 40 (outerRaw none 7 9 (innerRaw none 18))]

/-- What the parser says about `outerHoisted`. -/
def outerHoistedRaw : RawTree :=
  branch "program" none 0 63 [
    aliasRaw 0 10 46 (outerRaw (some "value") 13 9 (innerRaw none 24)),
    variableRaw 49 61 (branch "type_identifier" none 56 61 [])]

/-- What the parser says about `bothHoisted`. -/
def bothHoistedRaw : RawTree :=
  branch "program" none 0 86 [
    aliasRaw 0 11 23 (innerRaw (some "value") 14),
    aliasRaw 26 36 69 (outerRaw (some "value") 39 6 (branch "type_identifier" none 50 56 [])),
    variableRaw 72 84 (branch "type_identifier" none 79 84 [])]

end AliasHoist.Specimen

namespace AliasHoist.Command

open FileSystem

/-- What a run with a limit of one pass makes of a source that it can fix.  The pass is
given, so that a specimen only has to compute one. -/
theorem hoisted?_of_pass {plan : FixPlan} {path : Path} {editor next : Editor}
    (limit : plan.config.maxPasses = 1) (known : path.dialect? = some editor.dialect)
    (read : fs.readText path = .ok editor.content)
    (opened : Editor.new plan.parse editor.content editor.dialect = .ok editor)
    (clean : editor.hasErrors = false)
    (fixable : (editor.chosen plan.config.disambiguateNames).accepted ≠ [])
    (passed : Editor.pass plan.parse editor (editor.chosen plan.config.disambiguateNames) = .ok next) :
    hoisted? plan fs path = some {
      before := editor.content
      after := next.content
      outcome := {
        toProgress := Progress.none.add (editor.chosen plan.config.disambiguateNames)
        remaining := next.findings plan.config.disambiguateNames } } := by
  have fixed : (editor.fixAll plan.parse plan.config.disambiguateNames
      plan.config.maxPasses).result = (next, .ok {
        toProgress := Progress.none.add (editor.chosen plan.config.disambiguateNames)
        remaining := next.findings plan.config.disambiguateNames }) := by
    rw [limit, Editor.fixAll_of_not_hasErrors plan.parse clean,
      Editor.result_fixFrom_of_ok fixable passed]
    rfl
  rw [hoisted?_of_result known read opened clean fixed, if_neg]
  simpa [Progress.add, Progress.none] using fixable

end AliasHoist.Command

namespace AliasHoist.Specimen

open Command FileSystem

/-- The parser on these sources. -/
def layeredParser : Parser := fun content _ =>
  if content = layeredSource then .ok (.ofRaw layeredSource layeredRaw false)
  else if content = outerHoisted then .ok (.ofRaw outerHoisted outerHoistedRaw false)
  else if content = bothHoisted then .ok (.ofRaw bothHoisted bothHoistedRaw false)
  else .error .noTree

/-- The editor of the source. -/
def layeredEditor : Editor where
  content := layeredSource
  dialect := .typeScript
  tree := .ofRaw layeredSource layeredRaw false

/-- The editor after one pass. -/
def outerEditor : Editor where
  content := outerHoisted
  dialect := .typeScript
  tree := .ofRaw outerHoisted outerHoistedRaw false

/-- The editor after two passes. -/
def bothEditor : Editor where
  content := bothHoisted
  dialect := .typeScript
  tree := .ofRaw bothHoisted bothHoistedRaw false

theorem layeredParser_outerHoisted (dialect : Dialect) :
    layeredParser outerHoisted dialect = .ok (.ofRaw outerHoisted outerHoistedRaw false) := by
  rw [layeredParser, if_neg (by decide), if_pos rfl]

theorem layeredParser_bothHoisted (dialect : Dialect) :
    layeredParser bothHoisted dialect = .ok (.ofRaw bothHoisted bothHoistedRaw false) := by
  rw [layeredParser, if_neg (by decide), if_neg (by decide), if_pos rfl]

/-- The first pass hoists the outer literal.  The inner one is below it and has to wait. -/
theorem accepted_layeredEditor : (layeredEditor.chosen true).accepted = [
    { aliasName := "AType"
      declaration := .insert 0 "type AType = \x7b\n [k((p1: \x7b\n q: 1 \x7d) => 1)]: 1 \x7d;\n\n"
      reference := .replace 7 40 "AType" }] := by
  decide +kernel

/-- The second pass hoists the inner literal. -/
theorem accepted_outerEditor : (outerEditor.chosen true).accepted = [
    { aliasName := "P1Type"
      declaration := .insert 0 "type P1Type = \x7b\n q: 1 \x7d;\n\n"
      reference := .replace 24 33 "P1Type" }] := by
  decide +kernel

theorem pass_layeredEditor :
    Editor.pass layeredParser layeredEditor (layeredEditor.chosen true) = .ok outerEditor := by
  refine Editor.pass_of_inOrder _ ?sorted ?swept (layeredParser_outerHoisted _) rfl
  all_goals rw [FixSelection.edits, accepted_layeredEditor]
  case sorted => decide
  case swept => decide +kernel

theorem pass_outerEditor :
    Editor.pass layeredParser outerEditor (outerEditor.chosen true) = .ok bothEditor := by
  refine Editor.pass_of_inOrder _ ?sorted ?swept (layeredParser_bothHoisted _) rfl
  all_goals rw [FixSelection.edits, accepted_outerEditor]
  case sorted => decide
  case swept => decide +kernel

/-- The source before and after the first time it is fixed. -/
def layeredHoist : HoistedSource where
  before := layeredSource
  after := outerHoisted
  outcome := {
    toProgress := Progress.none.add (layeredEditor.chosen true)
    remaining := outerEditor.findings true }

/-- The source before and after the second time. -/
def outerHoist : HoistedSource where
  before := outerHoisted
  after := bothHoisted
  outcome := {
    toProgress := Progress.none.add (outerEditor.chosen true)
    remaining := bothEditor.findings true }

/-- The other spelling of the path of the specimen. -/
def dottedPath : Path := { text := "./a.ts" }

/-- A run of one pass that is given its only file under two names. -/
def twiceRun : InPlaceRun :=
  { inPlaceRun with parse := layeredParser, config := { maxPasses := 1 }, files := [dottedPath, path] }

/-- A directory with the source. -/
def layeredFiles : FileSystem where
  workingDirectory := ["w"]
  entries := [(["w"], .directory), (["w", "a.ts"], .file (.text layeredSource) true)]

/-- The files with the directory of the run. -/
def layeredMade : FileSystem :=
  (layeredFiles.put ["s"] .directory).put ["s", "0a1b2c3"] .directory

/-- The files with the backup of the source. -/
def onceBackedUp : FileSystem :=
  layeredMade.put ["s", "0a1b2c3", backupName absolute] (.file (.text layeredSource) true)

/-- The files once the source has been fixed. -/
def onceRewritten : FileSystem := onceBackedUp.put ["w", "a.ts"] (.file (.text outerHoisted) true)

/-- The files with the backup that has taken the place of the first. -/
def twiceBackedUp : FileSystem :=
  onceRewritten.put ["s", "0a1b2c3", backupName absolute] (.file (.text outerHoisted) true)

/-- The files once the source has been fixed again. -/
def twiceRewritten : FileSystem := twiceBackedUp.put ["w", "a.ts"] (.file (.text bothHoisted) true)

theorem makeDirectories_layeredFiles :
    layeredFiles.makeDirectories (twiceRun.recording.state.child twiceRun.recording.id) =
      (layeredMade, .ok ()) := by
  decide

theorem new_outerEditor : Editor.new layeredParser outerHoisted .typeScript = .ok outerEditor := by
  rw [Editor.new, layeredParser_outerHoisted]
  rfl

theorem hoisted?_layeredFiles : hoisted? twiceRun.plan layeredFiles dottedPath = some layeredHoist := by
  have known : dottedPath.dialect? = some layeredEditor.dialect := by decide
  have read : layeredFiles.readText dottedPath = .ok layeredEditor.content := by decide
  have new : Editor.new twiceRun.plan.parse layeredEditor.content layeredEditor.dialect =
      .ok layeredEditor := rfl
  have fixable : (layeredEditor.chosen true).accepted ≠ [] := by simp [accepted_layeredEditor]
  exact hoisted?_of_pass rfl known read new rfl fixable pass_layeredEditor

theorem on_rewriteFile_layeredFiles :
    (rewriteFile twiceRun.recording twiceRun.plan.format dottedPath layeredHoist).on layeredFiles =
      (.ok (changeOf absolute layeredHoist), onceRewritten) := by
  have place : layeredMade.placeOf (twiceRun.recording.state.child twiceRun.recording.id) =
      ["s", "0a1b2c3"] := by decide
  have found : layeredFiles.stat dottedPath =
      .ok (["w", "a.ts"], .file (.text layeredHoist.before) true) := by decide
  exact on_rewriteFile_of_free found (by decide)
    makeDirectories_layeredFiles ⟨by decide, by decide⟩ (by decide) (by decide) (by decide) place
    (.inl (by decide)) (by decide)

/-- What the first fix writes.  The rest of the files is as it was, so the second path
leads where it led. -/
theorem onceRewritten_changes :
    Changes {["s", "0a1b2c3", backupName absolute], ["w", "a.ts"]} ∅ layeredMade onceRewritten := by
  have kept : Changes {["s", "0a1b2c3", backupName absolute]} ∅ layeredMade onceBackedUp :=
    put_file_changes (by decide) _ _
  have written : Changes {["w", "a.ts"]} ∅ onceBackedUp onceRewritten :=
    put_file_changes (by decide) _ _
  exact (kept.mono (by simp) subset_rfl).trans (written.mono (by simp) subset_rfl)

theorem entryAt?_onceRewritten : onceRewritten.entryAt? ["s", "0a1b2c3", backupName absolute] =
    some (.file (.text layeredSource) true) := by
  rw [onceRewritten, entryAt?_put_of_ne _ _ (by simp), onceBackedUp, entryAt?_put_self _ _ (by simp)]

theorem stat_onceRewritten :
    onceRewritten.stat path = .ok (["w", "a.ts"], .file (.text outerHoisted) true) := by
  have located : layeredMade.locate path = .ok ["w", "a.ts"] := by decide
  exact stat_eq_ok_iff.mpr
    ⟨onceRewritten_changes.locate located, entryAt?_put_self _ _ (by simp), .inr (by decide)⟩

theorem hoisted?_onceRewritten : hoisted? twiceRun.plan onceRewritten path = some outerHoist := by
  have known : path.dialect? = some outerEditor.dialect := by decide
  have read : onceRewritten.readText path = .ok outerEditor.content :=
    readText_eq_ok_iff.mpr ⟨_, _, stat_onceRewritten⟩
  have new : Editor.new twiceRun.plan.parse outerEditor.content outerEditor.dialect =
      .ok outerEditor := new_outerEditor
  have fixable : (outerEditor.chosen true).accepted ≠ [] := by simp [accepted_outerEditor]
  exact hoisted?_of_pass rfl known read new rfl fixable pass_outerEditor

theorem on_rewriteFile_onceRewritten :
    (rewriteFile twiceRun.recording twiceRun.plan.format path outerHoist).on onceRewritten =
      (.ok (changeOf absolute outerHoist), twiceRewritten) := by
  have leads : layeredMade.Leads (twiceRun.recording.state.child twiceRun.recording.id) :=
    ⟨by decide, by decide⟩
  have place : onceRewritten.placeOf (twiceRun.recording.state.child twiceRun.recording.id) =
      ["s", "0a1b2c3"] := by
    rw [onceRewritten_changes.placeOf]
    decide
  exact on_rewriteFile_of_free stat_onceRewritten (by decide)
    (makeDirectories_again makeDirectories_layeredFiles onceRewritten_changes)
    (onceRewritten_changes.leads leads) (by decide) (by decide) (by decide) place
    (.inr ⟨_, entryAt?_onceRewritten⟩) (by simp)

/-- What both fixes write. -/
theorem twiceRewritten_changes :
    Changes {["s", "0a1b2c3", backupName absolute], ["w", "a.ts"]} ∅ layeredMade twiceRewritten := by
  have kept : Changes {["s", "0a1b2c3", backupName absolute]} ∅ onceRewritten twiceBackedUp :=
    put_file_changes (by simp [entryAt?_onceRewritten]) _ _
  have still := kept.stat stat_onceRewritten (by simp)
  have written : Changes {["w", "a.ts"]} ∅ twiceBackedUp twiceRewritten :=
    put_file_changes (by simp [(stat_eq_ok_iff.mp still).2.1]) _ _
  exact (onceRewritten_changes.trans (kept.mono (by simp) subset_rfl)).trans
    (written.mono (by simp) subset_rfl)

/-- The changes of the run: two of one file. -/
def twiceChanges : List FileChange := [changeOf absolute layeredHoist, changeOf absolute outerHoist]

/-- The second time finds what the first has left.  Its backup takes the place of the
first. -/
theorem on_fixEach_twiceRun : ∃ tally,
    (fixEach twiceRun.plan {} twiceRun.files).on layeredFiles = (.ok tally, twiceRewritten) ∧
      tally.changes = twiceChanges := by
  have inPlace : twiceRun.plan.delivery = .inPlace twiceRun.recording := rfl
  have first := on_fixFile_of_hoisted {} hoisted?_layeredFiles
  rw [on_deliver_of_rewriteFile inPlace on_rewriteFile_layeredFiles] at first
  have second := on_fixFile_of_hoisted
    (FixTally.record (FixTally.count {} twiceRun.plan.format layeredHoist)
      (changeOf absolute layeredHoist)) hoisted?_onceRewritten
  rw [on_deliver_of_rewriteFile inPlace on_rewriteFile_onceRewritten] at second
  have each := Task.on_bind_of_ok (isDeaf_fixEach twiceRun.plan · [path]) first
  have last := Task.on_bind_of_ok (isDeaf_fixEach twiceRun.plan · []) second
  exact ⟨_, each.trans last, rfl⟩

theorem isRunId_twiceRun : IsRunId twiceRun.id := by decide

theorem rewritesOutside_twiceRun :
    RewritesOutside { text := "/s" } twiceRun twiceChanges layeredFiles where
  state_eq := rfl
  isRunId := isRunId_twiceRun
  time := by decide
  outside := by decide
  resolves := by
    intro given mem
    rcases List.mem_pair.mp mem with rfl | rfl
    · exact ⟨absolute, by decide, by decide⟩
    · exact ⟨absolute, by decide, by decide⟩
  opens := congrArg Prod.snd makeDirectories_layeredFiles
  something := by simp [twiceChanges]
  counts := by decide +kernel
  tries := by
    obtain ⟨tally, each, changes⟩ := on_fixEach_twiceRun
    refine ⟨tally, _, each, changes, ?_⟩
    have something : tally.changes ≠ [] := by simp [changes, twiceChanges]
    have changes := twiceRewritten_changes
    have place : layeredMade.placeOf twiceRun.recording.state = ["s"] := by decide
    have ready : IsReady twiceRun.recording.state layeredMade :=
      ⟨⟨by decide, by decide⟩, .inr (by decide)⟩
    have own : CanStore twiceRun.recording.state "0a1b2c3.json" layeredMade :=
      ⟨by decide, by decide, by decide, by decide⟩
    have listed : CanStore twiceRun.recording.state "runs.json" layeredMade :=
      ⟨by decide, by decide, by decide, by decide⟩
    have apart (name : String) : Disjoint (slot (layeredMade.placeOf twiceRun.recording.state) name)
        {["s", "0a1b2c3", backupName absolute], ["w", "a.ts"]} := by
      rw [place, Set.disjoint_left]
      rintro location (rfl | rfl) <;> simp
    have index : RunIndex.ofEntry (twiceRewritten.entryAt?
        (twiceRewritten.placeOf twiceRun.recording.state ++ ["runs.json"])) = .ok .empty := by
      rw [changes.placeOf, changes.entryAt?_eq (by simp [place]) (Set.notMem_empty _)]
      decide
    obtain ⟨after, saved⟩ := Run.exists_save (ready.of_changes changes)
      (twiceRun.recording.run tally.changes) isRunId_twiceRun
      (own.of_changes changes (apart _) (Set.disjoint_empty _))
      (listed.of_changes changes (apart _) (Set.disjoint_empty _)) index
    have inPlace : twiceRun.plan.delivery = .inPlace twiceRun.recording := rfl
    rw [failsToWrite, inPlace, on_conclude_inPlace something, saved]
    rfl

theorem digests_twiceRun :
    (changeOf absolute layeredHoist).hashBefore ≠ (changeOf absolute outerHoist).hashBefore := by
  decide +kernel

end AliasHoist.Specimen
