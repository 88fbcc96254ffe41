import AliasHoist.Proofs.Runs.Sparing

/-!
# Runs that are only partly undone

Undoing a run can fail before anything is written, or at one of its sources, or at its records.  This
module says what is left then: the sources before the first that cannot be brought back hold their
backups, and the run is marked as undone in its own file if only the index has not been written.

## Main Definitions

* `findRevertible`: the run that is to be undone, if any;
* `KeepsRun`: everything but the records of a run is as it was, and so is its status in them;
* `RunError.isOfIndex`: whether a failure is one of the index;
* `FileChange.IsBack`: a source already holds what its backup holds.

## Main Statements

* `Run.save_error`: what is left when a run cannot be recorded anew;
* `keepsRun_iff_of_broughtBack`: what is left when only sources have been written;
* `failed_revert_keeps_iff`: when undoing a run fails and changes nothing;
* `run_partly_undone`: a run that is undone halfway, and one that is undone all the same.
-/

namespace AliasHoist

open FileSystem

variable {fs middle after : FileSystem} {state : Path} {id name text : String} {run : Run}
  {change : FileChange} {changes back : List FileChange} {force : Bool} {reason : RunError}
  {written : Set Location}

/-! ## Runs that are not undone at all -/

/-- **The run that is to be undone**, if it is found and can be undone.  The two checks
before anything is written, taken together, since a failure of either leaves everything
as it was. -/
def findRevertible (id : String) (force : Bool) (state : Path) (fs : FileSystem) :
    Except RunError Run := do
  let run ← Run.load id state fs
  checkRevertible run id force fs
  return run

/-- A run that can be undone has not been undone yet. -/
theorem findRevertible_eq_ok (h : findRevertible id force state fs = .ok run) :
    Run.load id state fs = .ok run ∧ run.status = .applied := by
  obtain ⟨found, loaded, h⟩ := Json.bind_eq_ok_iff.mp h
  obtain ⟨done, revertible, h⟩ := Json.bind_eq_ok_iff.mp h
  obtain rfl := Except.ok.inj h
  exact ⟨loaded, (checkRevertible_eq_ok_iff.mp revertible).1⟩

/-- **What undoing a run does**: nothing, when there is none that can be undone.  So the
proofs below have to deal with `undoRun` only. -/
theorem on_revertRun_eq (id : String) (force : Bool) (state : Path) (fs : FileSystem) :
    (revertRun id force state).on fs =
      match findRevertible id force state fs with
      | .error reason => (.error reason, fs)
      | .ok run => (undoRun id state run).on fs := by
  rw [on_revertRun, findRevertible]
  cases Run.load id state fs with
  | error reason => rfl
  | ok run =>
      dsimp only [bind, Except.bind]
      cases checkRevertible run id force fs <;> rfl

/-! ## Records that cannot be written -/

/-- Different names in a directory have different paths. -/
theorem Path.child_injective {path : Path} {other : String} (plain : IsPlainName name)
    (plain' : IsPlainName other) (same : path.child name = path.child other) : name = other := by
  have texts := congrArg Path.text same
  rw [child_text path plain, child_text path plain'] at texts
  split at texts <;> simpa using texts

/-- Whether a failure is one of the index.  It goes by the path in the failure, because
that is all that is reported: failures to write a record and to write the index differ
in nothing else. -/
def RunError.isOfIndex (state : Path) : RunError → Bool
  | .readIndex _ | .parseIndex _ => true
  | .createFile path _ | .moveIntoPlace path _ => path = (RunIndex.file state).append ".tmp"
  | _ => false

/-- An index that cannot be read is a failure of the index. -/
theorem isOfIndex_of_load_error (h : RunIndex.load state fs = .error reason) :
    reason.isOfIndex state = true := by
  rw [RunIndex.load] at h
  split at h
  · contradiction
  · split at h
    · obtain rfl := Except.error.inj h
      rfl
    · rename_i text _
      cases hread : Json.decodeText (RunIndex.decode .text) text with
      | error failure =>
          obtain rfl : RunError.parseIndex failure = reason := by simpa [hread, Except.mapError] using h
          rfl
      | ok index => simp [hread, Except.mapError] at h

/-- A file that cannot be written whole is left alone, but for the one beside it.  What
may be left behind is the file beside it, with the new text in it. -/
theorem changes_of_writeAtomically_error (plain : IsPlainName name)
    (plain' : IsPlainName (name ++ ".tmp"))
    (h : (writeAtomically (state.child name) text).on fs = (.error reason, after)) :
    Changes {fs.placeOf state ++ [name ++ ".tmp"]} ∅ fs after ∧
      ∃ failure, reason = .createFile ((state.child name).append ".tmp") failure ∨
        reason = .moveIntoPlace ((state.child name).append ".tmp") failure := by
  obtain ⟨failure, ⟨rfl, same⟩ | ⟨hwrite, same⟩⟩ := on_writeAtomically_eq_error h
  · exact ⟨.refl _, failure, .inl same⟩
  · exact ⟨(write_beside plain plain' hwrite).1, failure, .inr same⟩

/-- So is one that cannot be written. -/
theorem isOfIndex_of_writeAtomically_error
    (h : (writeAtomically (RunIndex.file state) text).on fs = (.error reason, after)) :
    reason.isOfIndex state = true := by
  obtain ⟨-, failure, rfl | rfl⟩ :=
    changes_of_writeAtomically_error isPlainName_index isPlainName_index_beside h
  · simp [RunError.isOfIndex, RunIndex.file]
  · simp [RunError.isOfIndex, RunIndex.file]

/-- A run whose file cannot be written is none, since no identifier is called like the
index. -/
theorem not_isOfIndex_of_writeAtomically_error (isRunId : IsRunId id)
    (h : (writeAtomically (runFile id state) text).on fs = (.error reason, after)) :
    reason.isOfIndex state = false := by
  have plain := isRunId.isPlainName_file
  have plain' := isRunId.isPlainName_beside
  have apart : (state.child (id ++ ".json")).append ".tmp" ≠ (RunIndex.file state).append ".tmp" := by
    rw [RunIndex.file, Path.append_child state plain ".tmp" plain',
      Path.append_child state isPlainName_index ".tmp" isPlainName_index_beside]
    intro same
    have lengths := congrArg (·.toList.length)
      (Path.child_injective plain' isPlainName_index_beside same)
    simp [isRunId.length_eq] at lengths
  obtain ⟨-, failure, rfl | rfl⟩ := changes_of_writeAtomically_error plain plain' h
  · simp [RunError.isOfIndex, apart]
  · simp [RunError.isOfIndex, apart]

/-- **What is left when a run cannot be recorded anew**: its own file is as it was, or
else it is written and the index could not be.  The reason tells which of the two it is,
so a user could know as well. -/
theorem Run.save_error (ready : IsReady state fs) (isRunId : IsRunId run.id)
    (storable : run.isStorable = true)
    (h : (run.save state).on fs = (.error reason, after)) :
    reason.isOfIndex state = false ∧
        Changes {fs.placeOf state ++ [run.id ++ ".json" ++ ".tmp"]} ∅ fs after ∨
      reason.isOfIndex state = true ∧ Run.load run.id state after = .ok run := by
  have plain := isRunId.isPlainName_file
  have plain' := isRunId.isPlainName_beside
  cases Run.saveEnds_of_made ready.makeDirectories h with
  | unwritten written =>
      exact .inl ⟨not_isOfIndex_of_writeAtomically_error isRunId written,
        (changes_of_writeAtomically_error plain plain' written).1⟩
  | unread written unread =>
      have stored := stored_of_writeAtomically plain plain' written
      exact .inr ⟨isOfIndex_of_load_error unread, Run.load_of_stored isRunId storable stored⟩
  | listed written loaded listing =>
      have stored := stored_of_writeAtomically plain plain' written
      have second := changes_of_writeAtomically isPlainName_index isPlainName_index_beside listing
      exact .inr ⟨isOfIndex_of_writeAtomically_error listing, Run.load_of_stored isRunId storable
        (stored.of_changes second (isRunId.disjoint_slot_index _) (Set.notMem_empty _))⟩

/-! ## What is left -/

/-- A run that was read can be stored.  What has been read came from a text, and texts
only hold what can be written. -/
theorem Run.isStorable_of_load (h : Run.load id state fs = .ok run) : run.isStorable = true := by
  obtain ⟨text, -, read⟩ := Run.load_eq_ok_iff.mp h
  obtain ⟨value, fits, decoded⟩ := Json.decodeText_eq_ok read
  exact Run.isStorable_of_decode fits decoded

/-- A run is still found when its file has not been written.  Whether the path still
leads there is no question, since writing takes no directory away. -/
theorem Run.load_of_changes {made : Set Location} (changes : Changes written made fs after)
    (untouched : fs.placeOf (runFile id state) ∉ written) (h : Run.load id state fs = .ok run) :
    Run.load id state after = .ok run := by
  obtain ⟨_, _, found⟩ := Run.exists_stat_of_load h
  rw [Run.load_eq_ok_iff] at h ⊢
  rwa [changes.readText found untouched]

/-- **A run is kept**: everything but its records is as it was, and so is its status in
its file and in the index.  The records are treated apart since recording may have left
a file beside them, which nothing reads. -/
structure KeepsRun (id : String) (state : Path) (fs after : FileSystem) : Prop where
  files : ∀ location, location ∉ recordSlots (fs.placeOf state) id →
    after.entryAt? location = fs.entryAt? location
  status : (Run.load id state after).map (·.status) = (Run.load id state fs).map (·.status)
  index : after.entryAt? (fs.placeOf state ++ ["runs.json"]) =
    fs.entryAt? (fs.placeOf state ++ ["runs.json"])

/-- Where nothing has been done the run is kept. -/
theorem KeepsRun.refl (fs : FileSystem) : KeepsRun id state fs fs := ⟨fun _ _ => rfl, rfl, rfl⟩

/-- **A source already holds what its backup holds.**  Bringing it back then writes what
was there.  It is the exact condition under which a half undone run does not show. -/
def FileChange.IsBack (change : FileChange) (id : String) (state : Path) (fs : FileSystem) : Prop :=
  ∃ text, change.restoredText? id state fs = some text ∧
    fs.entryAt? (fs.placeOf change.path) = some (.file (.text text) true)

/-- Sources that held what their backups hold are as they were.  The location may be
any, that of a source or not. -/
theorem BroughtBack.entryAt?_eq_of_isBack (h : BroughtBack id state back fs after)
    (all : ∀ change ∈ back, change.IsBack id state fs) (location : Location) :
    after.entryAt? location = fs.entryAt? location := by
  by_cases written : ∃ change ∈ back, location = fs.placeOf change.path
  · obtain ⟨change, mem, rfl⟩ := written
    obtain ⟨text, restored, held⟩ := h.held change mem
    obtain ⟨text', restored', held'⟩ := all change mem
    obtain rfl := Option.some.inj (restored.symm.trans restored')
    rw [held, held']
  · exact h.entryAt?_eq fun change mem same => written ⟨change, mem, same⟩

/-- The converse, for one source: if bringing it back did not show, it already held what
its backup holds. -/
theorem FileChange.isBack_of_broughtBack (h : BroughtBack id state back fs after)
    (mem : change ∈ back)
    (same : after.entryAt? (fs.placeOf change.path) = fs.entryAt? (fs.placeOf change.path)) :
    change.IsBack id state fs := by
  obtain ⟨text, restored, held⟩ := h.held change mem
  exact ⟨text, restored, same ▸ held⟩

/-- **When only sources have been written, a run is kept exactly if these held what
their backups hold.** Beside the file of the run, one may have been left from recording
it.  That the sources are apart from each other and from the records makes each of them
count on its own. -/
theorem keepsRun_iff_of_broughtBack (isRunId : IsRunId id)
    (loaded : Run.load id state fs = .ok run) (apart : SourcesApart state id run.changes fs)
    (h : BroughtBack id state back fs middle) (sub : back ⊆ run.changes)
    (left : Changes {fs.placeOf state ++ [id ++ ".json" ++ ".tmp"]} ∅ middle after) :
    KeepsRun id state fs after ↔ ∀ change ∈ back, change.IsBack id state fs := by
  have beside : fs.placeOf state ++ [id ++ ".json" ++ ".tmp"] ∈ recordSlots (fs.placeOf state) id :=
    .inl (.inr rfl)
  have notWritten : ∀ location ∈ recordSlots (fs.placeOf state) id,
      ∀ change ∈ back, location ≠ fs.placeOf change.path := by
    rintro location there change mem rfl
    exact apart.records change (sub mem) there
  constructor
  · intro kept change mem
    have untouched := apart.records change (sub mem)
    refine FileChange.isBack_of_broughtBack h mem ?_
    rw [← kept.files _ untouched]
    refine (left.entryAt?_eq ?_ (Set.notMem_empty _)).symm
    rintro same
    exact untouched (same ▸ beside)
  · intro all
    have same (location : Location) (other : location ≠ fs.placeOf state ++ [id ++ ".json" ++ ".tmp"]) :
        after.entryAt? location = fs.entryAt? location :=
      (left.entryAt?_eq other (Set.notMem_empty _)).trans (h.entryAt?_eq_of_isBack all location)
    have record : fs.placeOf (runFile id state) = fs.placeOf state ++ [id ++ ".json"] :=
      placeOf_child state isRunId.isPlainName_file
    have still : Run.load id state after = .ok run := by
      have middleLoaded : Run.load id state middle = .ok run := by
        refine Run.load_of_changes h.changes ?_ loaded
        rintro ⟨change, mem, there⟩
        rw [record] at there
        exact notWritten _ (.inl (.inl rfl)) change mem there
      refine Run.load_of_changes left ?_ middleLoaded
      rw [h.changes.placeOf, record, Set.mem_singleton_iff]
      intro same
      have lengths := congrArg (fun location => (location.getLast?.map (·.toList.length))) same
      simp at lengths
    refine ⟨fun location untouched => same location ?_, by rw [still, loaded], same _ ?_⟩
    · rintro rfl
      exact untouched beside
    · intro named
      have lengths := congrArg (fun location => (location.getLast?.map (·.toList.length))) named
      simp [isRunId.length_eq] at lengths

/-- **When undoing a run fails and changes nothing.**  If the run is not found or cannot be undone, nothing
changes at all.  Otherwise, if the sources of the run are apart, the run is kept exactly when the sources
before the first that cannot be brought back held what their backups hold, and the failure is not one of
the index. -/
theorem failed_revert_keeps_iff (id : String) (force : Bool) (state : Path) (fs after : FileSystem)
    (reason : RunError) (failed : (revertRun id force state).on fs = (.error reason, after)) :
    (∀ refusal, findRevertible id force state fs = .error refusal → reason = refusal ∧ after = fs) ∧
      ∀ run, findRevertible id force state fs = .ok run → run.id = id → IsRunId id →
        SourcesApart state id run.changes fs →
          (KeepsRun id state fs after ↔
            (∀ change ∈ restorableFirst id state fs run.changes, change.IsBack id state fs) ∧
              reason.isOfIndex state = false) := by
  rw [on_revertRun_eq] at failed
  refine ⟨fun refusal refused => ?_, fun run found recorded isRunId apart => ?_⟩
  · simp only [refused, Prod.mk.injEq, Except.error.injEq] at failed
    exact ⟨failed.1.symm, failed.2.symm⟩
  · subst recorded
    obtain ⟨loaded, applied⟩ := findRevertible_eq_ok found
    simp only [found] at failed
    obtain ⟨middle, back, ⟨failure, ofSource, ends⟩ | ⟨all, ends⟩⟩ := exists_undoRun_broughtBack apart
    · -- a source could not be brought back
      obtain ⟨rfl, rfl⟩ : failure = reason ∧ middle = after := by
        simpa using ends.symm.trans failed
      have other : failure.isOfIndex state = false := by
        cases failure <;> simp_all [RunError.isOfSource, RunError.isOfIndex]
      rw [keepsRun_iff_of_broughtBack isRunId loaded apart back (fun _ => mem_of_mem_restorableFirst)
        (.refl middle)]
      simp [other]
    · -- the run could not be recorded anew
      have ready := (isReady_of_load isRunId.isPlainName_file loaded).of_changes back.changes
      have isRunId' : IsRunId run.undone.id := isRunId
      have storable : run.undone.isStorable = true :=
        show run.isStorable = true from Run.isStorable_of_load loaded
      rcases Run.save_error ready isRunId' storable (ends.symm.trans failed) with
        ⟨other, left⟩ | ⟨ofIndex, marked⟩
      · rw [back.changes.placeOf] at left
        rw [keepsRun_iff_of_broughtBack isRunId loaded apart back
          (fun _ => mem_of_mem_restorableFirst) left]
        simp [other]
      · simp only [ofIndex, reduceCtorEq, and_false, iff_false]
        intro kept
        have marked : Run.load run.id state after = .ok run.undone := marked
        have status := kept.status
        rw [marked, loaded] at status
        have same : RunStatus.reverted = run.status := Except.ok.inj status
        rw [applied] at same
        contradiction

/-! ## Specimens -/

namespace Specimen

/-- Two changes, and no backup for the second. -/
def halfChanges : List FileChange :=
  [changeOfFile "a.ts" "new" "x", changeOfFile "b.ts" "new" "gone"]

theorem on_revertRun_halfChanges :
    (revertRun "0a1b2c3" false records).on (filesOf "X" "Y" noRuns halfChanges) =
      (.error (.readBackup ((records.child "0a1b2c3").child "gone") .notFound),
        (filesOf "X" "Y" noRuns halfChanges).put ["a.ts"] (.file (.text "X") true)) := by
  have small : ∀ change ∈ halfChanges, change.fixesApplied = 0 := by
    simp [halfChanges, changeOfFile]
  have asLeft : ∀ change ∈ halfChanges,
      change.IsAsLeft (filesOf "X" "Y" noRuns halfChanges) := by
    intro change mem
    simp only [halfChanges, List.mem_cons, List.not_mem_nil, or_false] at mem
    rcases mem with rfl | rfl <;> exact ⟨rfl, rfl⟩
  have revertible : checkRevertible (runOf halfChanges) "0a1b2c3" false
      (filesOf "X" "Y" noRuns halfChanges) = .ok () :=
    checkRevertible_eq_ok_iff.mpr ⟨rfl, rfl, fun _ => asLeft⟩
  have stops : (restoreAll "0a1b2c3" records (runOf halfChanges).changes).on
      (filesOf "X" "Y" noRuns halfChanges) =
        (.error (.readBackup ((records.child "0a1b2c3").child "gone") .notFound),
          (filesOf "X" "Y" noRuns halfChanges).put ["a.ts"] (.file (.text "X") true)) :=
    (on_restoreAll_of_written rfl rfl).trans rfl
  rw [on_revertRun_of_revertible (load_filesOf small) revertible, on_undoRun_eq, stops]

/-- A run that is undone although the index cannot be read. -/
theorem on_revertRun_unlisted :
    (revertRun "0a1b2c3" false records).on
        (savedFiles "" (emptyRun "0a1b2c3").toJson.pretty "") =
      (.error (.parseIndex .malformed),
        resavedFiles "" (emptyRun "0a1b2c3").undone.toJson.pretty "") := by
  have named : (emptyRun "0a1b2c3").undone.id = "0a1b2c3" := rfl
  have unread : Json.decodeText (RunIndex.decode .text) "" = .error .malformed := by decide
  have revertible (record : String) : checkRevertible (emptyRun "0a1b2c3") "0a1b2c3" false
      (savedFiles "" record "") = .ok () := rfl
  have restored (record : String) :
      (restoreAll "0a1b2c3" records (emptyRun "0a1b2c3").changes).on (savedFiles "" record "") =
        (.ok (), savedFiles "" record "") := rfl
  rw [on_revertRun_of_restored (load_savedFiles "" "" (isStorable_emptyRun "0a1b2c3"))
    (revertible _) (restored _), on_save_savedFiles _ _ _ named, unread]
  rfl

theorem load_run_resavedFiles (text index : String) (storable : run.isStorable = true) :
    Run.load "0a1b2c3" records (resavedFiles text run.toJson.pretty index) = .ok run := by
  have read (record : String) :
      (resavedFiles text record index).readText (runFile "0a1b2c3" records) = .ok record := rfl
  exact Run.load_of_readText storable (read _)

/-- Two changes, and no backup for the first. -/
def firstGone : List FileChange :=
  [changeOfFile "a.ts" "new" "gone", changeOfFile "b.ts" "new" "y"]

theorem sourcesApart_firstGone :
    SourcesApart records "0a1b2c3" firstGone (filesOf "X" "Y" noRuns firstGone) where
  distinct := List.pairwise_pair.mpr (show (["a.ts"] : Location) ≠ ["b.ts"] by decide)
  backups := List.pairwise_pair.mpr (show (["a.ts"] : Location) ≠ ["s", "0a1b2c3", "y"] by decide)
  records change mem := by
    have outside : ¬ (filesOf "X" "Y" noRuns firstGone).placeOf records <+:
        (filesOf "X" "Y" noRuns firstGone).placeOf change.path := by
      simp only [firstGone, List.mem_cons, List.not_mem_nil, or_false] at mem
      rcases mem with rfl | rfl
      · show ¬ (["s"] : Location) <+: ["a.ts"]
        decide
      · show ¬ (["s"] : Location) <+: ["b.ts"]
        decide
    exact fun there => outside (prefix_of_mem_recordSlots there)

end Specimen

open Specimen

/-- A run whose first backup is gone is not undone, and is kept. -/
theorem failed_revert_keeps_iff_specimen :
    ∃ reason after, (revertRun "0a1b2c3" true records).on (filesOf "X" "Y" noRuns firstGone) =
        (.error reason, after) ∧
      KeepsRun "0a1b2c3" records (filesOf "X" "Y" noRuns firstGone) after := by
  have small : ∀ change ∈ firstGone, change.fixesApplied = 0 := by simp [firstGone, changeOfFile]
  have found : findRevertible "0a1b2c3" true records (filesOf "X" "Y" noRuns firstGone) =
      .ok (runOf firstGone) := by
    rw [findRevertible, load_filesOf small]
    rfl
  have stops : (restoreAll "0a1b2c3" records (runOf firstGone).changes).on
      (filesOf "X" "Y" noRuns firstGone) =
        (.error (.readBackup ((records.child "0a1b2c3").child "gone") .notFound),
          filesOf "X" "Y" noRuns firstGone) := rfl
  have failed : (revertRun "0a1b2c3" true records).on (filesOf "X" "Y" noRuns firstGone) =
      (.error (.readBackup ((records.child "0a1b2c3").child "gone") .notFound),
        filesOf "X" "Y" noRuns firstGone) := by
    rw [on_revertRun_eq, found]
    simp only [on_undoRun_eq, stops]
  have stopsAtOnce : restorableFirst "0a1b2c3" records (filesOf "X" "Y" noRuns firstGone)
      (runOf firstGone).changes = [] := rfl
  refine ⟨_, _, failed, ((failed_revert_keeps_iff _ _ _ _ _ _ failed).2 _ found rfl (by decide)
    sourcesApart_firstGone).mpr ⟨?_, rfl⟩⟩
  rw [stopsAtOnce]
  simp

/-- **Runs that are only partly undone.**  A run with two sources is undone, unforced, and the backup of
the second is gone: that is an error, but the first source has been overwritten.  And a run is undone
beside an index that cannot be read: that is an error too, but its file says that the run is undone. -/
theorem run_partly_undone :
    (∃ reason after, (revertRun "0a1b2c3" false records).on (filesOf "X" "Y" noRuns halfChanges) =
        (.error reason, after) ∧
      (filesOf "X" "Y" noRuns halfChanges).readText { text := "a.ts" } = .ok "new" ∧
      after.readText { text := "a.ts" } = .ok "X") ∧
    ∃ reason after, (revertRun "0a1b2c3" false records).on
        (savedFiles "" (emptyRun "0a1b2c3").toJson.pretty "") = (.error reason, after) ∧
      Run.load "0a1b2c3" records (savedFiles "" (emptyRun "0a1b2c3").toJson.pretty "") =
        .ok (emptyRun "0a1b2c3") ∧
      Run.load "0a1b2c3" records after = .ok (emptyRun "0a1b2c3").undone := by
  have storable : (emptyRun "0a1b2c3").undone.isStorable = true := isStorable_emptyRun "0a1b2c3"
  refine ⟨⟨_, _, on_revertRun_halfChanges, rfl, rfl⟩, _, _, on_revertRun_unlisted, ?_, ?_⟩
  · exact load_savedFiles "" "" (isStorable_emptyRun "0a1b2c3")
  · exact load_run_resavedFiles "" "" storable

end AliasHoist
