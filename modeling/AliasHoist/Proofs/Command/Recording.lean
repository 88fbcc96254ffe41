import AliasHoist.Proofs.Command.Fixing
import AliasHoist.Proofs.Runs.Filing

/-!
# Whether a run is recorded

A run rewrites its files first and is recorded after that.  Its own file is written whatever there
was before; the index is read, and written with the run in it only when it can be read.  So a run in
place is found again by its identifier in any case, but it is listed exactly when the index of the
state directory could be read, and not when that index has another format, although listing and
forgetting runs would have moved such an index aside.

## Main Definitions

* `IsListed`: the index holds a run, so that it is shown among all runs.

## Main Statements

* `Run.save_of_unread`: recording a run beside an index that cannot be read;
* `isListed_of_stored`: reading back what was recorded;
* `run_listed_iff`: which runs in place are listed;
* `run_lost_with_index`: a run that is not.
-/

namespace AliasHoist

open FileSystem

variable {fs after : FileSystem} {state : Path} {id : String} {run : Run}

/-- **A run is listed**: the index holds it under its identifier, and shows it among all
runs.  Both parts are said because finding goes by identifier and showing by date. -/
def IsListed (state : Path) (run : Run) (fs : FileSystem) : Prop :=
  ∃ index, RunIndex.load state fs = .ok index ∧ index.find? run.id = some run ∧
    run ∈ index.newestFirst

/-! ## Reading back what was recorded -/

/-- A run that was added to an index that can be stored is listed.  Other runs in the
index do not matter, and neither does an older version of this one. -/
theorem isListed_of_stored {index : RunIndex} (h : index.IsStorable)
    (storable : run.isStorable = true)
    (stored : Stored state "runs.json" (index.add run).toJson.pretty fs) :
    IsListed state run fs := by
  have found := RunIndex.find?_add index run
  exact ⟨index.add run, (h.add storable).load_of_stored stored, found,
    RunIndex.mem_newestFirst_of_find? found⟩

/-! ## An index that cannot be read -/

/-- **Recording a run beside an index that cannot be read** fails for that reason, and
leaves the index as it is.  The file of the run has been written by then, and stays. -/
theorem Run.save_of_unread (ready : IsReady state fs) (isRunId : IsRunId run.id)
    {outcome : Except RunError Unit} (h : (run.save state).on fs = (outcome, after))
    (writes : ∀ reason, outcome = .error reason → reason.isWriteFailure = false)
    {reason : RunError}
    (unread : RunIndex.ofEntry (fs.entryAt? (fs.placeOf state ++ ["runs.json"])) = .error reason) :
    outcome = .error reason ∧ RunIndex.load state after = .error reason := by
  cases Run.saveEnds_of_made ready.makeDirectories h with
  | unwritten written =>
      have harmless := writes _ rfl
      rw [isWriteFailure_of_writeAtomically written] at harmless
      contradiction
  | unread written failed =>
      have same := failed
      rw [load_index_of_writeAtomically isRunId written, unread] at same
      obtain rfl := Except.error.inj same
      exact ⟨rfl, failed⟩
  | listed written loaded listing =>
      rw [load_index_of_writeAtomically isRunId written, unread] at loaded
      contradiction

namespace Command

variable {plan : FixPlan} {recording : Recording} {files : List Path} {before middle : FileSystem}
  {tally result : FixTally}

/-- The end of a run whose index cannot be read.  Failures of single files do not show,
since recording fails before they are looked at. -/
theorem on_settleRun_of_unread (inPlace : plan.delivery = .inPlace recording)
    (isRunId : IsRunId recording.id) (ready : IsReady recording.state fs)
    (something : tally.changes ≠ [])
    (records : failsToWrite (conclude plan.delivery tally) fs = false)
    {outcome : Except CommandError Unit} (h : (settleRun plan tally).on fs = (outcome, after))
    {reason : RunError}
    (unread : RunIndex.ofEntry (fs.entryAt? (fs.placeOf recording.state ++ ["runs.json"])) =
      .error reason) :
    outcome = .error (.run reason) ∧ RunIndex.load recording.state after = .error reason := by
  obtain ⟨saved, hsave, fails, -⟩ := exists_save_of_settleRun inPlace something records h
  obtain ⟨rfl, loaded⟩ := Run.save_of_unread ready isRunId hsave
    (fun failure failed => (fails failure failed).1) unread
  exact ⟨(fails reason rfl).2, loaded⟩

/-- **What has become of the record of a run**, given the index that was there before.
It is stated with the index from before the run, so that nothing about how the run got
there is left in it. -/
structure RecordOutcome (state : Path) (run : Run) (index : Except RunError RunIndex)
    (outcome : Except CommandError Unit) (after : FileSystem) : Prop where
  /-- The run is found by its identifier. -/
  found : Run.load run.id state after = .ok run
  /-- It is listed if there was an index to put it in. -/
  listed : (∃ old, index = .ok old) → IsListed state run after
  /-- Otherwise the index is as it was, and that is how the command fails. -/
  unlisted : ∀ reason, index = .error reason →
    outcome = .error (.run reason) ∧ RunIndex.load state after = .error reason

/-- Being listed is thus decided by the index from before the run. -/
theorem RecordOutcome.isListed_iff {index : Except RunError RunIndex}
    {outcome : Except CommandError Unit} (h : RecordOutcome state run index outcome after) :
    IsListed state run after ↔ ∃ old, index = .ok old := by
  refine ⟨fun ⟨found, hfound, _⟩ => ?_, h.listed⟩
  cases index with
  | ok old => exact ⟨old, rfl⟩
  | error reason =>
      have unread := (h.unlisted reason rfl).2
      rw [unread] at hfound
      contradiction

/-- The record of a run, from what has become of its files.  The run has not touched the
index until then, which is why the index from before can be used. -/
theorem FilesFixed.recordOutcome
    (fixed : FilesFixed plan recording files before middle {} result)
    (apart : AreApart recording.state files before)
    (inPlace : plan.delivery = .inPlace recording) (isRunId : IsRunId recording.id)
    (records : failsToWrite (conclude plan.delivery result) middle = false)
    (something : files.filterMap (changeIn? plan before) ≠ [])
    (storable : (recording.run (files.filterMap (changeIn? plan before))).isStorable = true)
    {outcome : Except CommandError Unit}
    (hrun : (settleRun plan result).on middle = (outcome, after)) :
    RecordOutcome recording.state (recording.run (files.filterMap (changeIn? plan before)))
      (RunIndex.load recording.state (opened recording.state recording.id before))
      outcome after := by
  have recorded : result.changes = files.filterMap (changeIn? plan before) := by
    simpa using fixed.changes_eq
  have ready : IsReady recording.state middle :=
    (fixed.ready something).of_child isRunId.isPlainName
  obtain ⟨-, stored, listed⟩ :=
    on_settleRun_inPlace inPlace isRunId ready (recorded ▸ something) records hrun
  have same := fixed.load_opened apart something isRunId stored
  rw [← same, recorded] at listed
  rw [recorded] at stored
  refine ⟨Run.load_of_stored isRunId storable stored, fun ⟨old, hold⟩ => ?_, fun reason unread => ?_⟩
  · exact isListed_of_stored (RunIndex.isStorable_of_load hold) storable (listed old hold).2
  · exact on_settleRun_of_unread inPlace isRunId ready (recorded ▸ something) records hrun
      (same.symm.trans unread)

/-- The record of a run that has rewritten something.  It is the same without the files
in between. -/
theorem recordOutcome_fixFiles (inPlace : plan.delivery = .inPlace recording)
    (isRunId : IsRunId recording.id) (apart : AreApart recording.state files fs)
    (writes : NoWriteFails plan recording files {} fs)
    (something : files.filterMap (changeIn? plan fs) ≠ [])
    (storable : (recording.run (files.filterMap (changeIn? plan fs))).isStorable = true) :
    RecordOutcome recording.state (recording.run (files.filterMap (changeIn? plan fs)))
      (RunIndex.load recording.state (opened recording.state recording.id fs))
      ((fixFiles plan files).on fs).1 ((fixFiles plan files).on fs).2 := by
  obtain ⟨result, middle, fixed, records, hrun⟩ := exists_fixFiles inPlace isRunId apart writes
  rw [hrun]
  exact fixed.recordOutcome apart inPlace isRunId records something storable rfl

/-- **Which runs in place are listed.**  A run on files that are apart, with no write failing, that has
rewritten something is found by its identifier.  It is listed exactly when the index could be read once
the directory of the run was there; otherwise the command fails for the reason that the index could not
be read, with the files rewritten and the index as it was. -/
theorem run_listed_iff (plan : FixPlan) (files : List Path) (world : World) (recording : Recording)
    (inPlace : plan.delivery = .inPlace recording) (isRunId : IsRunId recording.id)
    (apart : AreApart recording.state files world.files)
    (writes : NoWriteFails plan recording files {} world.files)
    (something : files.filterMap (changeIn? plan world.files) ≠ [])
    (storable : (recording.run (files.filterMap (changeIn? plan world.files))).isStorable = true) :
    let run := recording.run (files.filterMap (changeIn? plan world.files))
    let index := RunIndex.load recording.state (opened recording.state recording.id world.files)
    let upshot := (fixFiles plan files).upshot world
    Run.load recording.id recording.state upshot.2 = .ok run ∧
      (IsListed recording.state run upshot.2 ↔ ∃ old, index = .ok old) ∧
      ∀ reason, index = .error reason →
        upshot.1 = .error (.run reason) ∧ RunIndex.load recording.state upshot.2 = .error reason := by
  intro run index upshot
  have deaf : upshot = (fixFiles plan files).on world.files :=
    isDeaf_fixFiles (by simp [inPlace]) world
  have outcome : RecordOutcome recording.state run index upshot.1 upshot.2 := by
    rw [deaf]
    exact recordOutcome_fixFiles inPlace isRunId apart writes something storable
  exact ⟨outcome.found, outcome.isListed_iff, outcome.unlisted⟩

end Command

/-! ## Specimens -/

namespace Specimen

open Command

/-- The specimen is the only file of the run that is rewritten. -/
theorem changes_files :
    [path, otherPath].filterMap (changeIn? plan files) = [changeOf absolute hoistedSource] := by
  have canonical : files.canonical path = .ok absolute := by decide
  have nothing : hoisted? plan files otherPath = none :=
    (on_fixFile_of_cannotFix {} cannotFix_otherPath).1
  simp [changeIn?_of_hoisted hoisted?_path canonical, changeIn?_of_not_hoisted nothing]

theorem isStorable_run : (recording.run [changeOf absolute hoistedSource]).isStorable = true := by
  decide

/-- The specimen, with an index that has another format. -/
def olderFiles : FileSystem :=
  (files.put ["s"] .directory).put ["s", "runs.json"] (.file (.text "{}") true)

/-- These files with the directory of the run. -/
def olderMade : FileSystem := olderFiles.put ["s", "0a1b2c3"] .directory

/-- These files with the backup of the specimen. -/
def olderBackedUp : FileSystem :=
  olderMade.put ["s", "0a1b2c3", backupName absolute] (.file (.text source) true)

/-- These files once the specimen has been rewritten. -/
def olderRewritten : FileSystem := olderBackedUp.put ["w", "a.ts"] (.file (.text hoisted) true)

theorem opened_olderFiles : opened recording.state recording.id olderFiles = olderMade := by
  decide

theorem load_olderMade : RunIndex.load recording.state olderMade =
    .error (.parseIndex (.missingField "runs")) := by
  decide

theorem areApart_olderFiles : AreApart recording.state [path] olderFiles where
  named := by
    simp only [List.mem_cons, List.not_mem_nil, or_false, forall_eq]
    exact ⟨absolute, by decide⟩
  distinct := by decide
  outside := by decide

theorem hoisted?_olderFiles : hoisted? plan olderFiles path = some hoistedSource :=
  hoisted?_eq (by decide) (by decide)

theorem on_rewriteFile_olderFiles :
    (rewriteFile recording plan.format path hoistedSource).on olderFiles =
      (.ok (changeOf absolute hoistedSource), olderRewritten) := by
  have hstat : olderFiles.stat path = .ok (["w", "a.ts"], .file (.text source) true) := by decide
  have made : olderFiles.makeDirectories (recording.state.child recording.id) =
      (olderMade, .ok ()) := by decide
  have place : olderMade.placeOf (recording.state.child recording.id) = ["s", "0a1b2c3"] := by decide
  exact on_rewriteFile_of_free hstat (by decide) made ⟨by decide, by decide⟩ (by decide) (by decide)
    (by decide) place (.inl (by decide)) (by decide)

theorem noWriteFails_olderFiles : NoWriteFails plan recording [path] {} olderFiles := by
  have inPlace : plan.delivery = .inPlace recording := rfl
  have step := on_fixFile_of_hoisted {} hoisted?_olderFiles
  rw [on_deliver_of_rewriteFile inPlace on_rewriteFile_olderFiles] at step
  refine .cons (fun found hfound => ?_) step (.nil ?_)
  · obtain rfl := Option.some.inj (hoisted?_olderFiles.symm.trans hfound)
    rw [failsToWrite, on_rewriteFile_olderFiles]
  · decide

theorem changes_olderFiles :
    [path].filterMap (changeIn? plan olderFiles) = [changeOf absolute hoistedSource] := by
  have canonical : olderFiles.canonical path = .ok absolute := by decide
  simp [changeIn?_of_hoisted hoisted?_olderFiles canonical]

end Specimen

namespace Command

open Specimen

/-- Without an index before it, the run on the specimen is listed. -/
theorem run_listed_iff_specimen :
    IsListed recording.state (recording.run [changeOf absolute hoistedSource])
      ((fixFiles plan [path, otherPath]).upshot { files := files }).2 := by
  have listed := run_listed_iff plan [path, otherPath] { files := files } recording rfl (by decide)
    areApart noWriteFails (by simp [changes_files]) (by rw [changes_files]; exact isStorable_run)
  rw [changes_files] at listed
  exact listed.2.1.mpr ⟨.empty, by decide⟩

/-- **A run is lost with an index of another format.**  The specimen is rewritten, but its run is not
listed: recording it fails on an index that would have been moved aside when runs are listed. -/
theorem run_lost_with_index :
    RunIndex.load recording.state olderFiles = .error (.parseIndex (.missingField "runs")) ∧
      RunIndex.isOtherFormat (.parseIndex (.missingField "runs")) = true ∧
      ((fixFiles plan [path]).on olderFiles).2.readText path = .ok hoisted ∧
      ((fixFiles plan [path]).on olderFiles).1 =
        .error (.run (.parseIndex (.missingField "runs"))) ∧
      ¬ IsListed recording.state (recording.run [changeOf absolute hoistedSource])
        ((fixFiles plan [path]).on olderFiles).2 := by
  have inPlace : plan.delivery = .inPlace recording := rfl
  have record := recordOutcome_fixFiles inPlace (by decide) areApart_olderFiles
    noWriteFails_olderFiles (by simp [changes_olderFiles])
    (by rw [changes_olderFiles]; exact isStorable_run)
  rw [changes_olderFiles, opened_olderFiles, load_olderMade] at record
  refine ⟨by decide, by decide, ?_, (record.unlisted _ rfl).1, ?_⟩
  · obtain ⟨result, middle, fixed, records, hrun⟩ :=
      exists_fixFiles inPlace (by decide) areApart_olderFiles noWriteFails_olderFiles
    rw [hrun]
    exact (fixed.fixedInPlace areApart_olderFiles inPlace (by decide) records rfl).rewritten path
      (by simp) _ hoisted?_olderFiles
  · rw [record.isListed_iff]
    simp

end Command

end AliasHoist
