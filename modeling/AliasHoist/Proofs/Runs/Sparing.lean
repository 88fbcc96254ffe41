import AliasHoist.Proofs.Runs.Restoring

/-!
# Later edits are spared

Unless it is forced, a run is undone only when all of its files are as it left them, and the last of them
has been looked at before the first is written.  When it has been undone, its files hold what they held
before, and nothing else has changed outside the state directory.

The latter takes sources that are apart and an identifier that does not lead out of the state directory.
Otherwise one file may be written twice, a backup overwritten before it is used, or a record written to a
source.

## Main Definitions

* `FileChange.IsAsLeft`: a file is as a run left it;
* `HoldsBackups`: the files of a run hold what its backups held, and nothing else has changed.

## Main Statements

* `checkRevertible_eq_ok_iff`: when a run can be undone;
* `on_revertRun_unforced`: what is needed for anything to change;
* `exists_revertRun_of_restored`: undoing a run that is recorded;
* `holdsBackups_of_revertRun`: what a run that has been undone leaves;
* `unforced_revert_spares_edits`: unless it is forced, undoing a run overwrites no later edit;
* `sources_not_apart`: what else undoing a run may write.
-/

namespace AliasHoist

open FileSystem

variable {fs middle after : FileSystem} {state : Path} {id text : String} {run : Run}
  {change : FileChange} {changes back : List FileChange} {force : Bool}

/-! ## Files as a run left them -/

/-- **A file is as a run left it**: it is there, and its content has the digest that was
recorded.  A file that was deleted and one that was edited both fail it. -/
structure FileChange.IsAsLeft (change : FileChange) (fs : FileSystem) : Prop where
  there : fs.exists? change.path = true
  digest : fileDigest change.path fs = .ok change.hashAfter

/-- The check of one file is this property. -/
theorem checkUnchanged_eq_ok_iff : checkUnchanged id fs change = .ok () ↔ change.IsAsLeft fs := by
  rw [checkUnchanged]
  cases hthere : fs.exists? change.path with
  | false =>
      have missing : ¬ change.IsAsLeft fs := fun h => by simp [h.there] at hthere
      simp [missing]
  | true =>
      simp only [Bool.not_true, Bool.false_eq_true, if_false]
      cases hdigest : fileDigest change.path fs with
      | error reason =>
          have unread : ¬ change.IsAsLeft fs := fun h => by simp [h.digest] at hdigest
          simp [unread]
      | ok current =>
          dsimp only
          split
          · rename_i same
            simp only [true_iff]
            exact ⟨hthere, by rw [hdigest, same]⟩
          · rename_i differs
            simp only [reduceCtorEq, false_iff]
            intro h
            exact differs (Except.ok.inj (hdigest.symm.trans h.digest))

/-- The check of all files is this property of each of them, whatever order they are
looked at in. -/
theorem checkAllUnchanged_eq_ok_iff :
    checkAllUnchanged id fs changes = .ok () ↔ ∀ change ∈ changes, change.IsAsLeft fs := by
  induction changes with
  | nil => simp [checkAllUnchanged]
  | cons change rest ih =>
      have first : checkUnchanged id fs change = .ok () ↔ change.IsAsLeft fs :=
        checkUnchanged_eq_ok_iff
      rw [List.forall_mem_cons, ← ih, ← first, checkAllUnchanged]
      cases checkUnchanged id fs change <;> simp [bind, Except.bind]

/-- **When a run can be undone**: it is in force, and all its files are as it left them,
unless that does not matter.  Nothing is written while this is found out, so that one
edited file protects all the others. -/
theorem checkRevertible_eq_ok_iff :
    checkRevertible run id force fs = .ok () ↔
      run.status = .applied ∧ run.canRevert = true ∧
        (force = false → ∀ change ∈ run.changes, change.IsAsLeft fs) := by
  rw [checkRevertible]
  cases run.status with
  | reverted => simp
  | applied =>
      cases run.canRevert with
      | false => simp
      | true => cases force <;> simp [checkAllUnchanged_eq_ok_iff]

/-- **Without force, a run is undone only if all its files are as it left them.**
Otherwise it fails and changes nothing.  The alternative is not exclusive: even a run
whose files are as it left them can fail before anything is written. -/
theorem on_revertRun_unforced (id : String) (state : Path) (fs : FileSystem) :
    (∃ reason, (revertRun id false state).on fs = (.error reason, fs)) ∨
      ∃ run, Run.load id state fs = .ok run ∧ run.status = .applied ∧ run.canRevert = true ∧
        ∀ change ∈ run.changes, change.IsAsLeft fs := by
  refine (on_revertRun_cases id false state fs).imp_right ?_
  rintro ⟨run, loaded, revertible, -⟩
  obtain ⟨applied, canRevert, asLeft⟩ := checkRevertible_eq_ok_iff.mp revertible
  exact ⟨run, loaded, applied, canRevert, asLeft rfl⟩

/-- One file that is not as the run left it is enough.  It may be the last file of the
run: no earlier one is written. -/
theorem exists_revertRun_error (loaded : Run.load id state fs = .ok run) (mem : change ∈ run.changes)
    (edited : ¬ change.IsAsLeft fs) :
    ∃ reason, (revertRun id false state).on fs = (.error reason, fs) := by
  rcases on_revertRun_unforced id state fs with failed | ⟨found, loaded', -, -, asLeft⟩
  · exact failed
  · obtain rfl := Except.ok.inj (loaded.symm.trans loaded')
    exact absurd (asLeft change mem) edited

/-! ## Runs that are recorded -/

/-- **A run that can be undone is undone** once its contents have been brought back, if
it is recorded.  The records are taken from the files after the contents have been
brought back, as a source might be one of them. -/
theorem exists_revertRun_of_restored {index : RunIndex} {record listing : String}
    (loaded : Run.load run.id state fs = .ok run)
    (revertible : checkRevertible run run.id force fs = .ok ())
    (restored : (restoreAll run.id state run.changes).on fs = (.ok (), middle))
    (isRunId : IsRunId run.id) (own : Stored state (run.id ++ ".json") record middle)
    (listed : Stored state "runs.json" listing middle)
    (read : Json.decodeText (RunIndex.decode .text) listing = .ok index) :
    ∃ after, (revertRun run.id force state).on fs = (.ok (), after) ∧
      Changes (recordSlots (middle.placeOf state) run.id) ∅ middle after ∧
      Stored state "runs.json" (index.add run.undone).toJson.pretty after := by
  have isRunId' : IsRunId run.undone.id := isRunId
  have ready : IsReady state middle := own.isReady isRunId.isPlainName_file
  have hindex : RunIndex.ofEntry (middle.entryAt? (middle.placeOf state ++ ["runs.json"])) =
      .ok index := by
    rw [listed.held, RunIndex.ofEntry, read]
    rfl
  obtain ⟨after, saved⟩ := Run.exists_save ready run.undone isRunId' own.canStore listed.canStore
    hindex
  have changes := Run.save_changes ready run.undone isRunId'
  obtain ⟨-, relisted⟩ := Run.save_spec ready run.undone isRunId' saved (by simp)
  rw [saved] at changes
  refine ⟨after, ?_, changes, (relisted index hindex).2⟩
  rw [on_revertRun_of_restored loaded revertible restored, saved]

/-! ## What is left -/

/-- **The files of a run hold what its backups held**, and no other file outside the
state directory has changed.  Backups are read in the files from before, so a backup
that was itself overwritten still counts as it was. -/
structure HoldsBackups (id : String) (state : Path) (changes : List FileChange)
    (fs after : FileSystem) : Prop where
  sources : ∀ change ∈ changes, ∃ text, fs.readText (change.backupFile id state) = .ok text ∧
    after.readText change.path = .ok text
  others : ∀ location, ¬ fs.placeOf state <+: location →
    (∀ change ∈ changes, location ≠ fs.placeOf change.path) →
      after.entryAt? location = fs.entryAt? location

/-- A source that has been brought back is read as its backup.  Its path leads where it
led, as only files have changed. -/
theorem BroughtBack.readText (h : BroughtBack id state back fs after) (mem : change ∈ back) :
    ∃ text, fs.readText (change.backupFile id state) = .ok text ∧
      after.readText change.path = .ok text := by
  obtain ⟨text, restored, held⟩ := h.held change mem
  obtain ⟨read, result, hwrite⟩ := FileChange.restoredText?_eq_some_iff.mp restored
  obtain ⟨location, located, fileLike, -⟩ := write_eq_ok_iff.mp hwrite
  obtain rfl := eq_placeOf_of_locate located
  exact ⟨text, read, FileSystem.readText_eq_ok_iff.mpr
    ⟨_, _, FileSystem.stat_eq_ok_iff.mpr ⟨h.changes.locate located, held, .inr fileLike⟩⟩⟩

/-- The file of a run whose identifier has no slashes has a plain name, and so has the
one beside it.  The identifier need not be one that the program would make. -/
theorem isPlainName_record (noSlash : '/' ∉ id.toList) :
    IsPlainName (id ++ ".json") ∧ IsPlainName (id ++ ".json" ++ ".tmp") := by
  constructor <;> refine isPlainName_of_length ?_ ?_ <;> simp [noSlash]

/-- **A run that has been undone leaves what its backups held**, if its sources are
apart.  The hypotheses are the ones that `sources_not_apart` shows to be needed, one by
one. -/
theorem holdsBackups_of_revertRun (loaded : Run.load id state fs = .ok run) (recorded : run.id = id)
    (noSlash : '/' ∉ id.toList) (apart : SourcesApart state id run.changes fs)
    (undone : (revertRun id force state).on fs = (.ok (), after)) :
    HoldsBackups id state run.changes fs after := by
  subst recorded
  obtain ⟨plain, plain'⟩ := isPlainName_record noSlash
  rcases on_revertRun_cases run.id force state fs with ⟨reason, failed⟩ | ⟨found, loaded', -, undoes⟩
  · simp [failed] at undone
  obtain rfl := Except.ok.inj (loaded.symm.trans loaded')
  obtain ⟨middle, back, ⟨reason, -, failed⟩ | ⟨all, saves⟩⟩ := exists_undoRun_broughtBack apart
  · simp [undoes, failed] at undone
  rw [undoes, saves] at undone
  rw [all] at back
  -- what is recorded after that is no source
  have ready : IsReady state middle := (isReady_of_load plain loaded).of_changes back.changes
  have recorded := Run.save_changes_of_plain ready run.undone plain plain'
  rw [undone, back.changes.placeOf] at recorded
  have spared : ∀ change ∈ run.changes,
      fs.placeOf change.path ∉ recordSlots (fs.placeOf state) run.undone.id := apart.records
  refine ⟨fun change mem => ?_, fun location outside other => ?_⟩
  · obtain ⟨text, read, held⟩ := back.readText mem
    refine ⟨text, read, (recorded.readText_eq_ok_iff ?_).mpr held⟩
    rw [back.changes.placeOf]
    exact spared change mem
  · rw [recorded.entryAt?_eq (fun there => outside (prefix_of_mem_recordSlots there))
      (Set.notMem_empty _)]
    exact back.entryAt?_eq other

/-- **Undoing a run overwrites no later edit**, unless it is forced.  Either it fails and changes nothing,
or the run is in force and all its files are as it left them.  If one of them is not, it fails and changes
nothing.  If it succeeds, the files hold what their backups held, and no other file outside the state
directory has changed; that takes sources that are apart, and an identifier under which the run is recorded
in the state directory. -/
theorem unforced_revert_spares_edits (id : String) (state : Path) (fs : FileSystem) :
    ((∃ reason, (revertRun id false state).on fs = (.error reason, fs)) ∨
      ∃ run, Run.load id state fs = .ok run ∧ run.status = .applied ∧ run.canRevert = true ∧
        ∀ change ∈ run.changes, change.IsAsLeft fs) ∧
      ∀ run, Run.load id state fs = .ok run →
        (∀ change ∈ run.changes, ¬ change.IsAsLeft fs →
          ∃ reason, (revertRun id false state).on fs = (.error reason, fs)) ∧
        ∀ after, (revertRun id false state).on fs = (.ok (), after) →
          run.id = id → '/' ∉ id.toList → SourcesApart state id run.changes fs →
            HoldsBackups id state run.changes fs after := by
  refine ⟨on_revertRun_unforced id state fs, fun run loaded => ⟨fun change mem edited =>
    exists_revertRun_error loaded mem edited, ?_⟩⟩
  intro after undone recorded noSlash apart
  exact holdsBackups_of_revertRun loaded recorded noSlash apart undone

/-! ## Specimens -/

/-- A source that can be brought back is written, and then come the others.  It runs the
specimens below step by step. -/
theorem on_restoreAll_of_written
    (read : fs.readText (change.backupFile id state) = .ok text)
    (written : fs.write change.path (.text text) = .ok middle) :
    (restoreAll id state (change :: changes)).on fs = (restoreAll id state changes).on middle := by
  rw [on_restoreAll_cons, on_restoreBackup, ← FileChange.backupFile, read]
  simp only [written]

namespace Specimen

/-- A state directory with a run and two backups of it, and two files beside it. -/
def keptFiles (first second record index : String) : FileSystem where
  workingDirectory := []
  entries := [
    (["s"], .directory),
    (["s", "0a1b2c3"], .directory),
    (["s", "0a1b2c3", "x"], .file (.text first) true),
    (["s", "0a1b2c3", "y"], .file (.text second) true),
    (["s", "0a1b2c3.json"], .file (.text record) true),
    (["s", "runs.json"], .file (.text index) true),
    (["a.ts"], .file (.text "new") true),
    (["b.ts"], .file (.text "new") true)]

/-- A change of the file at a path that left a content. -/
def changeOfFile (path content backup : String) : FileChange where
  path := { text := path }
  hashBefore := ""
  hashAfter := contentDigest (.text content)
  backup := backup
  fixesApplied := 0

/-- A run with some changes. -/
def runOf (changes : List FileChange) : Run := { emptyRun "0a1b2c3" with changes }

/-- The text of an index without runs. -/
def noRuns : String := (RunIndex.ofRuns []).toJson.pretty

/-- The index without runs can be read. -/
theorem decodeText_noRuns :
    Json.decodeText (RunIndex.decode .text) noRuns = .ok (.ofRuns []) :=
  RunIndex.decodeText_ofRuns (by simp) (by simp)

variable {first second index : String}

/-- The files with the record of a run. -/
def filesOf (first second index : String) (changes : List FileChange) : FileSystem :=
  keptFiles first second (runOf changes).toJson.pretty index

/-- The run can be stored. -/
theorem isStorable_runOf (small : ∀ change ∈ changes, change.fixesApplied = 0) :
    (runOf changes).isStorable = true := by
  have writable : Timestamp.isWritable { seconds := 0, nanos := 0 } = true := by decide
  rw [Run.isStorable, Bool.and_eq_true, List.all_eq_true]
  refine ⟨writable, fun change mem => ?_⟩
  simp [small change mem]

/-- The run is found in its file. -/
theorem load_filesOf (small : ∀ change ∈ changes, change.fixesApplied = 0) :
    Run.load "0a1b2c3" records (filesOf first second index changes) = .ok (runOf changes) := by
  have read (record : String) :
      (keptFiles first second record index).readText (runFile "0a1b2c3" records) = .ok record := rfl
  exact Run.load_of_readText (isStorable_runOf small) (read _)

/-- The run of these files is undone once its contents have been brought back.  What the
specimens have in common; each only has to bring its own contents back. -/
theorem exists_revertRun_filesOf (small : ∀ change ∈ changes, change.fixesApplied = 0)
    (asLeft : ∀ change ∈ changes, change.IsAsLeft (filesOf first second index changes))
    (restored : (restoreAll "0a1b2c3" records changes).on (filesOf first second index changes) =
      (.ok (), middle))
    (place : middle.placeOf records = ["s"])
    (own : Stored records ("0a1b2c3" ++ ".json") (runOf changes).toJson.pretty middle)
    (listed : Stored records "runs.json" noRuns middle) :
    ∃ after, (revertRun "0a1b2c3" false records).on (filesOf first second index changes) =
        (.ok (), after) ∧
      Changes (recordSlots ["s"] "0a1b2c3") ∅ middle after ∧
      Stored records "runs.json" (RunIndex.ofRuns [(runOf changes).undone]).toJson.pretty after := by
  have isRunId : IsRunId "0a1b2c3" := by decide
  have added : (RunIndex.ofRuns []).add (runOf changes).undone =
      .ofRuns [(runOf changes).undone] := RunIndex.add_ofRuns_new List.not_mem_nil
  have loaded : Run.load (runOf changes).id records (filesOf first second index changes) =
      .ok (runOf changes) := load_filesOf small
  have revertible : checkRevertible (runOf changes) (runOf changes).id false
      (filesOf first second index changes) = .ok () :=
    checkRevertible_eq_ok_iff.mpr ⟨rfl, rfl, fun _ => asLeft⟩
  have undone := exists_revertRun_of_restored loaded revertible restored isRunId own listed
    decodeText_noRuns
  rw [added, place] at undone
  exact undone

/-- The file beside the state directory stays as it is while the run is recorded.  It
lets the specimens read the file before the records are written, where all contents are
known. -/
theorem readText_beside (changes : Changes (recordSlots ["s"] "0a1b2c3") ∅ middle after)
    (place : middle.placeOf { text := "a.ts" } = ["a.ts"])
    (read : after.readText { text := "a.ts" } = .ok text) :
    middle.readText { text := "a.ts" } = .ok text := by
  refine (changes.readText_eq_ok_iff ?_).mp read
  rw [place]
  exact fun there => absurd (prefix_of_mem_recordSlots there) (by decide)

/-- **A run is undone, but something is not as it should be**: not all of its sources,
which have different paths, hold what their backups held, or another file outside the
state directory has changed.  That the paths are different is part of it, since one path
listed twice would be too cheap. -/
def IsMisrestored (id : String) (fs : FileSystem) : Prop :=
  ∃ run after, Run.load id records fs = .ok run ∧ run.id = id ∧
    (run.changes.map (·.path)).Nodup ∧ (revertRun id false records).on fs = (.ok (), after) ∧
    ¬ HoldsBackups id records run.changes fs after

/-! ### One file under two paths -/

/-- Two changes of one file, under two paths. -/
def twinChanges : List FileChange :=
  [changeOfFile "a.ts" "new" "x", changeOfFile "./a.ts" "new" "y"]

/-- The second backup is what the file holds at the end. -/
theorem isMisrestored_twinChanges :
    IsMisrestored "0a1b2c3" (filesOf "X" "Y" noRuns twinChanges) := by
  have small : ∀ change ∈ twinChanges, change.fixesApplied = 0 := by simp [twinChanges, changeOfFile]
  have asLeft : ∀ change ∈ twinChanges,
      change.IsAsLeft (filesOf "X" "Y" noRuns twinChanges) := by
    intro change mem
    simp only [twinChanges, List.mem_cons, List.not_mem_nil, or_false] at mem
    rcases mem with rfl | rfl <;> exact ⟨rfl, rfl⟩
  have restored : (restoreAll "0a1b2c3" records twinChanges).on (filesOf "X" "Y" noRuns twinChanges) =
      (.ok (), ((filesOf "X" "Y" noRuns twinChanges).put ["a.ts"] (.file (.text "X") true)).put
        ["a.ts"] (.file (.text "Y") true)) :=
    (on_restoreAll_of_written rfl rfl).trans (on_restoreAll_of_written rfl rfl)
  obtain ⟨after, undone, changes, -⟩ := exists_revertRun_filesOf small asLeft restored rfl
    ⟨rfl, rfl, rfl, rfl⟩ ⟨rfl, rfl, rfl, rfl⟩
  refine ⟨_, after, load_filesOf small, rfl, by decide, undone, fun holds => ?_⟩
  obtain ⟨text, kept, read⟩ := holds.sources (changeOfFile "a.ts" "new" "x") List.mem_cons_self
  obtain rfl : "X" = text := Except.ok.inj kept
  have twin : "Y" = "X" := Except.ok.inj (readText_beside changes rfl read)
  exact absurd twin (by decide)

/-! ### A source that is the backup of another -/

/-- A change of the backup of the next one. -/
def chainedChanges : List FileChange :=
  [changeOfFile "/s/0a1b2c3/y" "Y" "x", changeOfFile "a.ts" "new" "y"]

/-- The second backup is overwritten before it is used. -/
theorem isMisrestored_chainedChanges :
    IsMisrestored "0a1b2c3" (filesOf "X" "Y" noRuns chainedChanges) := by
  have small : ∀ change ∈ chainedChanges, change.fixesApplied = 0 := by
    simp [chainedChanges, changeOfFile]
  have asLeft : ∀ change ∈ chainedChanges,
      change.IsAsLeft (filesOf "X" "Y" noRuns chainedChanges) := by
    intro change mem
    simp only [chainedChanges, List.mem_cons, List.not_mem_nil, or_false] at mem
    rcases mem with rfl | rfl <;> exact ⟨rfl, rfl⟩
  have restored : (restoreAll "0a1b2c3" records chainedChanges).on
      (filesOf "X" "Y" noRuns chainedChanges) =
        (.ok (), ((filesOf "X" "Y" noRuns chainedChanges).put ["s", "0a1b2c3", "y"]
          (.file (.text "X") true)).put ["a.ts"] (.file (.text "X") true)) :=
    (on_restoreAll_of_written rfl rfl).trans (on_restoreAll_of_written rfl rfl)
  obtain ⟨after, undone, changes, -⟩ := exists_revertRun_filesOf small asLeft restored rfl
    ⟨rfl, rfl, rfl, rfl⟩ ⟨rfl, rfl, rfl, rfl⟩
  refine ⟨_, after, load_filesOf small, rfl, by decide, undone, fun holds => ?_⟩
  obtain ⟨text, kept, read⟩ := holds.sources (changeOfFile "a.ts" "new" "y")
    (List.mem_cons_of_mem _ List.mem_cons_self)
  obtain rfl : "Y" = text := Except.ok.inj kept
  have overwritten : "X" = "Y" := Except.ok.inj (readText_beside changes rfl read)
  exact absurd overwritten (by decide)

/-! ### A source that is a record -/

/-- A change of the index. -/
def indexChanges : List FileChange := [changeOfFile "/s/runs.json" "" "x"]

/-- The index is brought back and then written with the run in it. -/
theorem isMisrestored_indexChanges :
    IsMisrestored "0a1b2c3" (filesOf noRuns "Y" "" indexChanges) := by
  have small : ∀ change ∈ indexChanges, change.fixesApplied = 0 := by
    simp [indexChanges, changeOfFile]
  have asLeft : ∀ change ∈ indexChanges,
      change.IsAsLeft (filesOf noRuns "Y" "" indexChanges) := by
    intro change mem
    obtain rfl := List.mem_singleton.mp mem
    exact ⟨rfl, rfl⟩
  have restored : (restoreAll "0a1b2c3" records indexChanges).on
      (filesOf noRuns "Y" "" indexChanges) =
        (.ok (), (filesOf noRuns "Y" "" indexChanges).put ["s", "runs.json"]
          (.file (.text noRuns) true)) :=
    on_restoreAll_of_written rfl rfl
  obtain ⟨after, undone, -, listed⟩ := exists_revertRun_filesOf small asLeft restored rfl
    ⟨rfl, rfl, rfl, rfl⟩ ⟨rfl, rfl, rfl, rfl⟩
  refine ⟨_, after, load_filesOf small, rfl, by decide, undone, fun holds => ?_⟩
  obtain ⟨text, kept, read⟩ := holds.sources (changeOfFile "/s/runs.json" "" "x") List.mem_cons_self
  obtain rfl : noRuns = text := Except.ok.inj kept
  have relisted : (RunIndex.ofRuns [(runOf indexChanges).undone]).toJson.pretty = noRuns :=
    Except.ok.inj ((listed.readText isPlainName_index).symm.trans read)
  have decoded : Json.decodeText (RunIndex.decode .text)
      (RunIndex.ofRuns [(runOf indexChanges).undone]).toJson.pretty =
        .ok (.ofRuns [(runOf indexChanges).undone]) :=
    RunIndex.decodeText_ofRuns (by simp) fun run mem => by
      obtain rfl := List.mem_singleton.mp mem
      exact isStorable_runOf small
  rw [relisted, decodeText_noRuns] at decoded
  simp [RunIndex.ofRuns] at decoded

/-! ### An identifier that leads out of the state directory -/

/-- These files after a run has been recorded beside the state directory, and in it. -/
def strayFiles (text record index : String) : FileSystem :=
  ((besideFiles text).put ["beside.json"] (.file (.text record) true)).put ["s", "runs.json"]
    (.file (.text index) true)

/-- A run is recorded where its identifier leads. -/
theorem on_save_stray (text : String) (named : run.id = "../beside") :
    (run.save records).on (besideFiles text) =
      (.ok (), strayFiles text run.toJson.pretty (RunIndex.empty.add run).toJson.pretty) := by
  have made : (Task.makeDirectories records RunError.files).on (besideFiles text) =
      (.ok (), besideFiles text) := by
    rw [Task.on_makeDirectories, (isEmptyDirectory_besideFiles text).ready.makeDirectories]
    rfl
  have deaf : (Task.ask (RunIndex.load records) (fun reason => reason) >>= fun index =>
      (index.add run).save records).IsDeaf :=
    (Task.isDeaf_ask _ _).bind fun _ => RunIndex.isDeaf_save _ _
  rw [Run.save, Task.on_bind_of_ok (fun _ => (isDeaf_writeAtomically _ _).bind fun _ => deaf) made,
    named]
  generalize run.toJson.pretty = record
  have written : (writeAtomically (runFile "../beside" records) record).on (besideFiles text) =
      (.ok (), (besideFiles text).put ["beside.json"] (.file (.text record) true)) := by
    rw [on_writeAtomically]
    rfl
  have loaded : (Task.ask (RunIndex.load records) fun reason => reason).on
      ((besideFiles text).put ["beside.json"] (.file (.text record) true)) =
        (.ok .empty, (besideFiles text).put ["beside.json"] (.file (.text record) true)) := rfl
  have ready : IsReady records
      ((besideFiles text).put ["beside.json"] (.file (.text record) true)) :=
    ⟨⟨rfl, rfl⟩, .inr (by decide)⟩
  rw [Task.on_bind_of_ok (fun _ => deaf) written,
    Task.on_bind_of_ok (fun _ => RunIndex.isDeaf_save _ _) loaded, RunIndex.on_save ready]
  generalize (RunIndex.empty.add run).toJson.pretty = index
  rw [on_writeAtomically]
  rfl

/-- Undoing such a run writes its record outside the state directory. -/
theorem on_revertRun_stray :
    (revertRun "../beside" false records).on (besideFiles (emptyRun "../beside").toJson.pretty) =
      (.ok (), strayFiles (emptyRun "../beside").toJson.pretty
        (emptyRun "../beside").undone.toJson.pretty
        (RunIndex.empty.add (emptyRun "../beside").undone).toJson.pretty) := by
  have named : (emptyRun "../beside").undone.id = "../beside" := rfl
  have revertible (text : String) : checkRevertible (emptyRun "../beside") "../beside" false
      (besideFiles text) = .ok () := rfl
  have restored (text : String) : (restoreAll "../beside" records (emptyRun "../beside").changes).on
      (besideFiles text) = (.ok (), besideFiles text) := rfl
  rw [on_revertRun_of_restored (load_besideFiles (isStorable_emptyRun "../beside")) (revertible _)
    (restored _), on_save_stray _ named]

/-- That file is none of its sources. -/
theorem isMisrestored_stray :
    IsMisrestored "../beside" (besideFiles (emptyRun "../beside").toJson.pretty) := by
  have loaded := load_besideFiles (isStorable_emptyRun "../beside")
  refine ⟨_, _, loaded, rfl, by simp [emptyRun], on_revertRun_stray, fun holds => ?_⟩
  have changed := holds.others ["beside.json"] (by decide) (by simp [emptyRun])
  have same : (emptyRun "../beside").undone.toJson.pretty = (emptyRun "../beside").toJson.pretty := by
    revert changed
    generalize (emptyRun "../beside").toJson.pretty = text
    generalize (emptyRun "../beside").undone.toJson.pretty = record
    intro changed
    have held : some (Entry.file (.text record) true) = some (.file (.text text) true) := changed
    simpa using held
  have decoded : Json.decodeText (Run.decode .text) (emptyRun "../beside").undone.toJson.pretty =
      .ok (emptyRun "../beside").undone := Run.decodeText_pretty (isStorable_emptyRun "../beside")
  rw [same, Run.decodeText_pretty (isStorable_emptyRun "../beside")] at decoded
  simp [emptyRun, Run.undone] at decoded

/-! ### A source that is as the run left it -/

/-- One change of a file. -/
def oneChange : List FileChange := [changeOfFile "a.ts" "new" "x"]

/-- A single source outside the state directory is apart. -/
theorem sourcesApart_oneChange :
    SourcesApart records "0a1b2c3" oneChange (filesOf "X" "Y" noRuns oneChange) where
  distinct := List.pairwise_singleton _ _
  backups := List.pairwise_singleton _ _
  records change mem := by
    obtain rfl := List.mem_singleton.mp mem
    exact fun there => absurd (prefix_of_mem_recordSlots there) (by decide)

/-- A change of a file that is gone. -/
def lostChange : List FileChange := [changeOfFile "gone.ts" "new" "x"]

end Specimen

open Specimen

/-- A run is undone, and its file holds what it held before; and a run is not undone because its file is
gone. -/
theorem unforced_revert_spares_edits_specimen :
    (∃ after, (revertRun "0a1b2c3" false records).on (filesOf "X" "Y" noRuns oneChange) =
        (.ok (), after) ∧
      HoldsBackups "0a1b2c3" records oneChange (filesOf "X" "Y" noRuns oneChange) after) ∧
    ∃ reason, (revertRun "0a1b2c3" false records).on (filesOf "X" "Y" noRuns lostChange) =
      (.error reason, filesOf "X" "Y" noRuns lostChange) := by
  constructor
  · have small : ∀ change ∈ oneChange, change.fixesApplied = 0 := by simp [oneChange, changeOfFile]
    have asLeft : ∀ change ∈ oneChange, change.IsAsLeft (filesOf "X" "Y" noRuns oneChange) := by
      intro change mem
      obtain rfl := List.mem_singleton.mp mem
      exact ⟨rfl, rfl⟩
    have restored : (restoreAll "0a1b2c3" records oneChange).on (filesOf "X" "Y" noRuns oneChange) =
        (.ok (), (filesOf "X" "Y" noRuns oneChange).put ["a.ts"] (.file (.text "X") true)) :=
      on_restoreAll_of_written rfl rfl
    obtain ⟨after, undone, -, -⟩ := exists_revertRun_filesOf small asLeft restored rfl
      ⟨rfl, rfl, rfl, rfl⟩ ⟨rfl, rfl, rfl, rfl⟩
    exact ⟨after, undone, ((unforced_revert_spares_edits _ _ _).2 _ (load_filesOf small)).2 after
      undone rfl (by decide) sourcesApart_oneChange⟩
  · have small : ∀ change ∈ lostChange, change.fixesApplied = 0 := by
      simp [lostChange, changeOfFile]
    refine ((unforced_revert_spares_edits _ _ _).2 _ (load_filesOf small)).1 _
      (List.mem_singleton_self _) fun asLeft => ?_
    have gone : (filesOf "X" "Y" noRuns lostChange).exists? { text := "gone.ts" } = false := rfl
    exact absurd asLeft.there (by simp [changeOfFile, gone])

/-- **What else undoing a run may write.**  Four runs are undone, unforced: one with two paths of one file,
one with a source that is the backup of the next, one with the index as a source, and one with an
identifier that leads out of the state directory.  Of the first three, one of the files does not hold what
its backup held; with the fourth, a file outside the state directory has changed that is no source. -/
theorem sources_not_apart :
    IsMisrestored "0a1b2c3" (filesOf "X" "Y" noRuns twinChanges) ∧
      IsMisrestored "0a1b2c3" (filesOf "X" "Y" noRuns chainedChanges) ∧
      IsMisrestored "0a1b2c3" (filesOf noRuns "Y" "" indexChanges) ∧
      IsMisrestored "../beside" (besideFiles (emptyRun "../beside").toJson.pretty) :=
  ⟨isMisrestored_twinChanges, isMisrestored_chainedChanges, isMisrestored_indexChanges,
    isMisrestored_stray⟩

end AliasHoist
