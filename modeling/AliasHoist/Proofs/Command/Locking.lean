import AliasHoist.Proofs.Command.Trying
import AliasHoist.Proofs.Runs.Recovering

/-!
# Runs whose writes fail

What a run records as the content of a file after a change is what it is about to write.  When the write
fails, the file keeps its content, and looks as if it had been edited since.  So a run with failed writes is
undone if that is forced, but not otherwise.

## Main Definitions

* `IsLocked`: a file cannot be written.

## Main Statements

* `LeavesTried.isAsLeft_iff`: which files look as the run left them;
* `failed_writes_undone_iff`: when a run with failed writes is undone;
* `locked_run_not_undone`: a run that is not.

## What is load-bearing

A file that is backed up is recorded whatever comes of the write, so what is recorded does not depend on
which files are locked.  Only what the files hold after the run does (`Restoration.IsTried`).
-/

namespace AliasHoist

open FileSystem

/-- **A file cannot be written.**  It can be read, so there may be something to fix in
it. -/
def IsLocked (path : Path) (fs : FileSystem) : Prop :=
  ∃ location content, fs.stat path = .ok (location, .file content false)

namespace Command

variable {run : InPlaceRun} {before after later : FileSystem} {item : Restoration}
  {items : List Restoration}

/-! ## Undoing a run whose writes failed -/

namespace LeavesTried

variable (h : IsTraceable run before) (leaves : LeavesTried run items before after)
  (alone : LeftAlone run.recording.state (run.recording.run (items.map (·.change))) after later)

include h leaves in
/-- A file that the run has tried was locked, and holds what it held before, or else it
holds what was recorded.  The two cases are told apart by the file before the run, and
not by the outcome of the write. -/
theorem stat_cases (mem : item ∈ items) :
    (IsLocked item.change.path before ∧
        after.stat item.change.path = .ok (item.location, .file (.text item.before) false)) ∨
      ¬ IsLocked item.change.path before ∧ ∃ content,
        after.stat item.change.path = .ok (item.location, .file content true) ∧
          contentDigest content = item.change.hashAfter := by
  obtain ⟨writable, found⟩ := h.stat_of_mem_restorations (leaves.sublist.subset mem)
  obtain ⟨located, there, demands⟩ := stat_eq_ok_iff.mp found
  have fileLike := demands.resolve_left (by simp)
  have still {content : Content} {writable : Bool}
      (held : after.entryAt? item.location = some (.file content writable)) :
      after.stat item.change.path = .ok (item.location, .file content writable) :=
    stat_eq_ok_iff.mpr ⟨leaves.changes.locate located, held, .inr fileLike⟩
  cases leaves.tried item mem with
  | locked locked held =>
      obtain rfl : writable = false := by simpa [there] using locked
      exact .inl ⟨⟨_, _, found⟩, still held⟩
  | rewritten free held digest =>
      obtain rfl : writable = true := by simpa [there] using free
      refine .inr ⟨?_, _, still held, digest⟩
      rintro ⟨location, content, locked⟩
      simp [found] at locked

include alone in
/-- Left alone, a file holds what it held, and can be written.  Unlocking changes the
permission and nothing else. -/
theorem stat_later (mem : item ∈ items) {content : Content} {writable : Bool}
    (found : after.stat item.change.path = .ok (item.location, .file content writable)) :
    later.stat item.change.path = .ok (item.location, .file content true) := by
  obtain ⟨located, -, demands⟩ := stat_eq_ok_iff.mp found
  exact stat_eq_ok_iff.mpr ⟨alone.changes.locate located,
    alone.sources _ (List.mem_map_of_mem mem) _ _ _ found, .inr (demands.resolve_left (by simp))⟩

include h leaves alone

/-- **A file looks as the run left it** unless it was locked and should have got another
content.  A source whose fixed text has the digest of its old text is the exception,
which the equation on the right stands for. -/
theorem isAsLeft_iff (mem : item ∈ items) : item.change.IsAsLeft later ↔
    (IsLocked item.change.path before → item.change.hashBefore = item.change.hashAfter) := by
  rcases leaves.stat_cases h mem with ⟨locked, found⟩ | ⟨free, content, found, digest⟩
  · have before : item.change.hashBefore = contentDigest (.text item.before) := by
      obtain ⟨_, _, _, _, rfl⟩ := mem_restorations.mp (leaves.sublist.subset mem)
      rfl
    simp [isAsLeft_iff_of_stat (stat_later alone mem found), locked, before]
  · simp [isAsLeft_iff_of_stat (stat_later alone mem found), free, digest]

/-- So every file of the run can be brought back. -/
theorem isAtHand (mem : item ∈ items) : item.IsAtHand run.recording.state run.id later where
  found := by
    rcases leaves.stat_cases h mem with ⟨-, found⟩ | ⟨-, content, found, -⟩
    · exact ⟨_, stat_later alone mem found⟩
    · exact ⟨_, stat_later alone mem found⟩
  outside := by
    rw [alone.changes.placeOf, leaves.changes.placeOf]
    exact h.outside_of_mem_restorations (leaves.sublist.subset mem)
  plain := by
    obtain ⟨_, _, _, _, rfl⟩ := mem_restorations.mp (leaves.sublist.subset mem)
    exact isPlainName_backupName _
  kept := alone.keepsBackup (List.mem_map_of_mem mem) (leaves.kept item mem)

/-- **A run whose files look as it left them is undone**, and so is any other if that is
forced.  The hypothesis is only used without force. -/
theorem exists_revertRun {force : Bool}
    (asLeft : force = false → ∀ item ∈ items, item.change.IsAsLeft later) :
    ∃ undone, (revertRun run.id force run.recording.state).on later = (.ok (), undone) ∧
      ∀ item ∈ items, ReadsAsBefore item.change.path before undone := by
  obtain ⟨listing, index, listed, read⟩ := leaves.listed
  have revertible : checkRevertible (run.recording.run (items.map (·.change))) run.id force later =
      .ok () := by
    refine checkRevertible_eq_ok_iff.mpr ⟨rfl, rfl, fun unforced change mem => ?_⟩
    obtain ⟨item, hitem, rfl⟩ := List.mem_map.mp mem
    exact asLeft unforced item hitem
  obtain ⟨undone, reverts, restored⟩ := exists_revertRun_of_atHand rfl
    (fun item mem => leaves.isAtHand h alone mem) (h.distinct.sublist leaves.sublist) revertible
    h.isRunId (h.isStorable_of_sublist leaves.sublist)
    (alone.stored Set.subset_union_left leaves.own)
    (alone.stored Set.subset_union_right listed) read
  refine ⟨undone, reverts, fun item mem => ⟨item.before, ?_, restored item mem⟩⟩
  obtain ⟨writable, found⟩ := h.stat_of_mem_restorations (leaves.sublist.subset mem)
  exact readText_eq_ok_iff.mpr ⟨_, _, found⟩

/-- **Without force, one file that was locked is enough** for the run not to be undone,
if it should have got another content.  The other files of the run stay as well,
although they could be brought back. -/
theorem exists_unforced_error (mem : item ∈ items) (locked : IsLocked item.change.path before)
    (differs : item.change.hashBefore ≠ item.change.hashAfter) :
    ∃ reason, (revertRun run.id false run.recording.state).on later = (.error reason, later) := by
  have loaded : Run.load (run.recording.run (items.map (·.change))).id run.recording.state later =
      .ok (run.recording.run (items.map (·.change))) :=
    Run.load_of_stored h.isRunId (h.isStorable_of_sublist leaves.sublist)
      (alone.stored Set.subset_union_left leaves.own)
  refine exists_revertRun_error loaded (List.mem_map_of_mem mem) fun asLeft => ?_
  exact differs ((leaves.isAsLeft_iff h alone mem).mp asLeft locked)

end LeavesTried

/-- **When a run with failed writes is undone.**  Whichever of its files are locked while it runs, these
keep their content.  Once it is recorded and all of them can be written again, with nothing else changed, it
is undone unforced, with every file of its record reading as before the run, exactly if each of these files
that was locked should have kept its content.  If one of them should have got another content, the run is
not undone and nothing changes.  If that is forced, it is undone in any case. -/
theorem failed_writes_undone_iff (run : InPlaceRun) (before later : FileSystem)
    (changes : List FileChange) (traceable : IsTraceable run before)
    (recorded : run.IsRecorded changes before)
    (alone : LeftAlone run.recording.state (run.recording.run changes) (run.perform before) later) :
    (∀ change ∈ changes, IsLocked change.path before →
        ReadsAsBefore change.path before (run.perform before)) ∧
      ((∃ after, (revertRun run.id false run.recording.state).on later = (.ok (), after) ∧
          ∀ change ∈ changes, ReadsAsBefore change.path before after) ↔
        ∀ change ∈ changes, IsLocked change.path before → change.hashBefore = change.hashAfter) ∧
      (∀ change ∈ changes, IsLocked change.path before → change.hashBefore ≠ change.hashAfter →
        ∃ reason, (revertRun run.id false run.recording.state).on later = (.error reason, later)) ∧
      ∃ after, (revertRun run.id true run.recording.state).on later = (.ok (), after) ∧
        ∀ change ∈ changes, ReadsAsBefore change.path before after := by
  obtain ⟨items, rfl, leaves⟩ := traceable.exists_leavesTried recorded
  simp only [List.forall_mem_map]
  have fails : ∀ item ∈ items, IsLocked item.change.path before →
      item.change.hashBefore ≠ item.change.hashAfter →
      ∃ reason, (revertRun run.id false run.recording.state).on later = (.error reason, later) :=
    fun item mem => leaves.exists_unforced_error traceable alone mem
  refine ⟨fun item mem locked => ?_, ⟨?_, fun same => ?_⟩, fails, ?_⟩
  · obtain ⟨writable, found⟩ := traceable.stat_of_mem_restorations (leaves.sublist.subset mem)
    rcases leaves.stat_cases traceable mem with ⟨-, still⟩ | ⟨free, -⟩
    · exact ⟨_, readText_eq_ok_iff.mpr ⟨_, _, found⟩, readText_eq_ok_iff.mpr ⟨_, _, still⟩⟩
    · exact absurd locked free
  · rintro ⟨after, undone, -⟩ item mem locked
    by_contra differs
    obtain ⟨reason, failed⟩ := fails item mem locked differs
    simp [undone] at failed
  · exact leaves.exists_revertRun traceable alone fun _ item mem =>
      (leaves.isAsLeft_iff traceable alone mem).mpr (same item mem)
  · exact leaves.exists_revertRun traceable alone (by simp)

end Command

/-! ## A specimen -/

namespace Specimen

open Command

/-- A directory with the specimen, which cannot be written. -/
def lockedFiles : FileSystem where
  workingDirectory := ["w"]
  entries := [(["w"], .directory), (["w", "a.ts"], .file (.text source) false)]

/-- The run on the specimen alone. -/
def lockedRun : InPlaceRun := { inPlaceRun with files := [path] }

/-- These files with the directory of the run. -/
def lockedMade : FileSystem :=
  (lockedFiles.put ["s"] .directory).put ["s", "0a1b2c3"] .directory

/-- These files with the backup of the specimen. -/
def lockedBackedUp : FileSystem :=
  lockedMade.put ["s", "0a1b2c3", backupName absolute] (.file (.text source) true)

/-- The files after the run, once the specimen can be written. -/
def unlockedFiles : FileSystem :=
  (lockedRun.perform lockedFiles).put ["w", "a.ts"] (.file (.text source) true)

theorem stat_path_lockedFiles :
    lockedFiles.stat path = .ok (["w", "a.ts"], .file (.text source) false) := by decide

theorem canonical_path_lockedFiles : lockedFiles.canonical path = .ok absolute := by decide

theorem hoisted?_lockedFiles : hoisted? plan lockedFiles path = some hoistedSource :=
  hoisted?_eq (by decide) (readText_eq_ok_iff.mpr ⟨_, _, stat_path_lockedFiles⟩)

theorem changes_lockedRun : lockedRun.changes lockedFiles = [changeOf absolute hoistedSource] := by
  have change : changeIn? plan lockedFiles path = some (changeOf absolute hoistedSource) :=
    changeIn?_of_hoisted hoisted?_lockedFiles canonical_path_lockedFiles
  have same : lockedRun.plan = plan := rfl
  rw [InPlaceRun.changes, same]
  simp [lockedRun, change]

theorem isTraceable_lockedRun : IsTraceable lockedRun lockedFiles where
  isRunId := by decide
  time := by decide
  apart := ⟨by simpa [lockedRun] using ⟨absolute, canonical_path_lockedFiles⟩,
    List.pairwise_singleton _ _, by decide⟩
  resolves := by
    intro given mem found hfound
    obtain rfl := List.mem_singleton.mp mem
    obtain rfl := Except.ok.inj (canonical_path_lockedFiles.symm.trans hfound)
    decide
  counts := by
    rw [changes_lockedRun]
    simp [changeOf, hoistedSource]
  digests := by
    rintro first ⟨given, mem, hfirst⟩ second ⟨other, mem', hsecond⟩ -
    obtain rfl := List.mem_singleton.mp mem
    obtain rfl := List.mem_singleton.mp mem'
    exact Except.ok.inj (hfirst.symm.trans hsecond)

/-- The backup of the specimen is kept, but the specimen is not written. -/
theorem on_fixFile_locked : ∃ tally,
    (fixFile plan {} path).on lockedFiles = (.ok tally, lockedBackedUp) ∧
      tally.changes = [changeOf absolute hoistedSource] := by
  have inPlace : plan.delivery = .inPlace recording := rfl
  have made : lockedFiles.makeDirectories (recording.state.child recording.id) =
      (lockedMade, .ok ()) := by decide
  have place : lockedMade.placeOf (recording.state.child recording.id) = ["s", "0a1b2c3"] := by decide
  have kept : lockedMade.write ((recording.state.child recording.id).child (backupName absolute))
      (.text source) = .ok lockedBackedUp := by
    exact write_backup ⟨by decide, by decide⟩ (by decide) (by decide) (by decide) place
      (.inl (by decide))
  have canonical : pathOf ["w", "a.ts"] = absolute := by decide
  have still : lockedBackedUp.stat path = .ok (["w", "a.ts"], .file (.text source) false) := by decide
  rw [on_fixFile_of_hoisted {} hoisted?_lockedFiles, on_deliver_inPlace inPlace,
    on_backUp stat_path_lockedFiles, on_saveBackup, made, canonical]
  have before : hoistedSource.before = source := rfl
  simp only [before, kept, write_of_stat still]
  exact ⟨_, rfl, rfl⟩

theorem isRecorded_lockedRun :
    lockedRun.IsRecorded [changeOf absolute hoistedSource] lockedFiles where
  something := by simp
  saves := by
    obtain ⟨tally, fixed, recorded⟩ := on_fixFile_locked
    have isRunId : IsRunId "0a1b2c3" := by decide
    have ready : IsReady recording.state lockedBackedUp := ⟨⟨by decide, by decide⟩, .inr (by decide)⟩
    have own : CanStore recording.state "0a1b2c3.json" lockedBackedUp :=
      ⟨by decide, by decide, by decide, by decide⟩
    have listed : CanStore recording.state "runs.json" lockedBackedUp :=
      ⟨by decide, by decide, by decide, by decide⟩
    have index : RunIndex.ofEntry (lockedBackedUp.entryAt?
        (lockedBackedUp.placeOf recording.state ++ ["runs.json"])) = .ok .empty := by decide
    obtain ⟨after, saved⟩ := Run.exists_save ready
      (recording.run [changeOf absolute hoistedSource]) isRunId own listed index
    have begun : (fixEach lockedRun.plan {} []).on lockedFiles = (.ok {}, lockedFiles) := rfl
    exact ⟨tally, lockedBackedUp, (on_fixEach_concat begun).trans fixed, recorded,
      congrArg Prod.fst saved⟩

/-- The run has tried the specimen.  The item is not written out, as it has digests in
it. -/
theorem exists_leavesTried_lockedRun : ∃ item : Restoration,
    item.change = changeOf absolute hoistedSource ∧
      LeavesTried lockedRun [item] lockedFiles (lockedRun.perform lockedFiles) := by
  obtain ⟨items, same, leaves⟩ := isTraceable_lockedRun.exists_leavesTried isRecorded_lockedRun
  obtain ⟨item, rfl, change⟩ := List.map_eq_singleton_iff.mp same.symm
  exact ⟨item, change, leaves⟩

theorem stat_absolute_performed : (lockedRun.perform lockedFiles).stat absolute =
    .ok (["w", "a.ts"], .file (.text source) false) := by
  have found : lockedFiles.stat absolute = .ok (["w", "a.ts"], .file (.text source) false) := by decide
  obtain ⟨item, change, leaves⟩ := exists_leavesTried_lockedRun
  have mem : item ∈ [item] := List.mem_singleton_self _
  have path : item.change.path = absolute := congrArg FileChange.path change
  obtain ⟨writable, found'⟩ := isTraceable_lockedRun.stat_of_mem_restorations
    (leaves.sublist.subset mem)
  rw [path, found] at found'
  obtain ⟨location, before⟩ : ["w", "a.ts"] = item.location ∧ source = item.before := by simp_all
  rcases leaves.stat_cases isTraceable_lockedRun mem with ⟨-, held⟩ | ⟨free, -⟩
  · rw [path, ← location, ← before] at held
    exact held
  · exact absurd ⟨_, _, path ▸ found⟩ free

theorem leftAlone_unlockedFiles : LeftAlone lockedRun.recording.state
    (lockedRun.recording.run [changeOf absolute hoistedSource]) (lockedRun.perform lockedFiles)
    unlockedFiles := by
  obtain ⟨located, held, -⟩ := stat_eq_ok_iff.mp stat_absolute_performed
  have changes : Changes {["w", "a.ts"]} ∅ (lockedRun.perform lockedFiles) unlockedFiles :=
    put_file_changes (by simp [held]) _ _
  obtain ⟨item, -, leaves⟩ := exists_leavesTried_lockedRun
  have place : (lockedRun.perform lockedFiles).placeOf lockedRun.recording.state = ["s"] := by
    rw [leaves.changes.placeOf]
    decide
  have apart {location : Location} (below : ["s"] <+: location) :
      unlockedFiles.entryAt? location = (lockedRun.perform lockedFiles).entryAt? location := by
    refine changes.entryAt?_eq ?_ (Set.notMem_empty _)
    rintro rfl
    revert below
    decide
  constructor
  · exact changes.workingDirectory_eq
  · exact changes.directory_stays
  · intro location there
    exact apart (place ▸ prefix_of_mem_recordSlots there)
  · intro change mem
    obtain rfl := List.mem_singleton.mp mem
    refine apart ?_
    have isRunId : IsRunId lockedRun.id := by decide
    have backup : (lockedRun.perform lockedFiles).placeOf
        ((changeOf absolute hoistedSource).backupFile lockedRun.id lockedRun.recording.state) =
          ["s"] ++ [lockedRun.id, backupName absolute] := by
      rw [← place]
      exact placeOf_backup isRunId.isPlainName absolute
    exact backup ▸ List.prefix_append _ _
  · intro change mem location content writable found
    obtain rfl := List.mem_singleton.mp mem
    obtain ⟨rfl, rfl, -⟩ : ["w", "a.ts"] = location ∧ .text source = content ∧ false = writable := by
      simpa using stat_absolute_performed.symm.trans found
    exact entryAt?_put_self _ _ (by simp)

theorem isLocked_absolute : IsLocked absolute lockedFiles :=
  ⟨["w", "a.ts"], .text source, by decide⟩

/-- The specimen should have got another content.  The digests are computed, for two
short texts. -/
theorem digests_hoistedSource :
    (changeOf absolute hoistedSource).hashBefore ≠ (changeOf absolute hoistedSource).hashAfter := by
  decide +kernel

end Specimen

namespace Command

open Specimen

/-- The specimen is locked while it should be rewritten.  Unless it is forced, the run is not undone. -/
theorem failed_writes_undone_iff_specimen :
    (∃ reason, (revertRun lockedRun.id false lockedRun.recording.state).on unlockedFiles =
        (.error reason, unlockedFiles)) ∧
      ∃ after, (revertRun lockedRun.id true lockedRun.recording.state).on unlockedFiles = (.ok (), after) ∧
        ReadsAsBefore absolute lockedFiles after := by
  obtain ⟨-, -, fails, after, undone, restored⟩ := failed_writes_undone_iff lockedRun lockedFiles
    unlockedFiles _ isTraceable_lockedRun isRecorded_lockedRun leftAlone_unlockedFiles
  have listed : changeOf absolute hoistedSource ∈ [changeOf absolute hoistedSource] :=
    List.mem_singleton_self _
  exact ⟨fails _ listed isLocked_absolute digests_hoistedSource, after, undone, restored _ listed⟩

/-- **A run with a failed write is not undone.**  It is recorded, the file that could not be written can be
written again, and nothing else has changed; but undoing the run fails. -/
theorem locked_run_not_undone :
    IsTraceable lockedRun lockedFiles ∧
      lockedRun.IsRecorded [changeOf absolute hoistedSource] lockedFiles ∧
      LeftAlone lockedRun.recording.state
        (lockedRun.recording.run [changeOf absolute hoistedSource]) (lockedRun.perform lockedFiles)
        unlockedFiles ∧
      ∃ reason, (revertRun lockedRun.id false lockedRun.recording.state).on unlockedFiles =
        (.error reason, unlockedFiles) := by
  refine ⟨isTraceable_lockedRun, isRecorded_lockedRun, leftAlone_unlockedFiles, ?_⟩
  obtain ⟨item, change, leaves⟩ := exists_leavesTried_lockedRun
  have alone := leftAlone_unlockedFiles
  rw [← change] at alone
  refine leaves.exists_unforced_error isTraceable_lockedRun alone (List.mem_singleton_self _) ?_ ?_
  · rw [change]
    exact isLocked_absolute
  · rw [change]
    exact digests_hoistedSource

end Command

end AliasHoist
