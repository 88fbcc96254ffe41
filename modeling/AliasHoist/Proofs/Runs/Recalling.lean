import AliasHoist.Proofs.Runs.InStep

/-!
# Recalling runs

A run is recorded in a file that is named after it and in the index, and both are read back as what
they were.  The identifier of a run may be any text here, so the file of the run may be anywhere; only
if it is the index itself can the run not be recorded, because a run is no index.

## Main Statements

* `RunIndex.load_of_changes`: an index that can be read stays so, away from the changes;
* `Run.exists_parts_of_save`: the writes of which recording a run is made;
* `Run.placeOf_ne_of_save`: a run that was recorded is not in the place of the index;
* `run_survives_storage`: what is recorded is read back;
* `run_named_as_index`: a run that cannot be recorded.

## Design Notes

Recording a run makes the state directory first.  Where the path of that directory leads through
others that are not there yet, as in `a/../b`, there may be an index once they have been made and none
before; so `run_survives_storage` asks for an index in the directory that has been made.
-/

namespace AliasHoist

open FileSystem

variable {fs middle after : FileSystem} {state : Path} {run : Run} {index : RunIndex}

/-! ## Reading back -/

namespace RunIndex

/-- **An index that can be read stays what it was**, away from the changes.  An index
that is missing has to stay missing, for which no directory may have been made; that is
why `made` is empty here. -/
theorem load_of_changes {written : Set Location} (loaded : load state fs = .ok index)
    (changes : Changes written ∅ fs after) (untouched : fs.placeOf (file state) ∉ written) :
    load state after = .ok index := by
  cases hread : fs.readText (file state) with
  | ok text =>
      rw [load_of_readText hread] at loaded
      rw [load_of_readText ((changes.readText_eq_ok_iff untouched).mpr hread), loaded]
  | error reason =>
      have absent : fs.exists? (file state) = false := by
        by_contra there
        simp [load, hread, there] at loaded
      have absent' : after.exists? (file state) = false := by
        rw [← Bool.not_eq_true, exists?_eq_true_iff] at absent ⊢
        rintro ⟨location, entry, found⟩
        obtain rfl := eq_placeOf_of_stat found
        rw [changes.placeOf] at found
        exact absent ⟨_, _, (changes.stat_eq_ok_iff untouched).mp found⟩
      simpa [load, absent, absent'] using loaded

/-- **An index that is written is read back**, and nothing but a write can fail.
Nothing is asked about how the state directory was before: it is made if need be. -/
theorem load_of_save (storable : index.IsStorable) {outcome : Except RunError Unit}
    (h : (index.save state).on fs = (outcome, after)) :
    (outcome = .ok () ∧ load state after = .ok index) ∨
      ∃ reason, outcome = .error reason ∧ reason.isWriteFailure = true := by
  cases hmade : fs.makeDirectories state with
  | mk made done =>
      cases done with
      | error reason =>
          have failed : (index.save state).on fs = (.error (.files reason), made) := by
            refine Task.on_bind_of_error (fun _ => isDeaf_writeAtomically _ _) ?_
            rw [Task.on_makeDirectories, hmade]
            rfl
          rw [failed] at h
          exact .inr ⟨_, (Prod.mk.inj h).1.symm, rfl⟩
      | ok done =>
          rw [on_save_of_made hmade] at h
          cases outcome with
          | error reason => exact .inr ⟨reason, rfl, isWriteFailure_of_writeAtomically h⟩
          | ok done =>
              exact .inl ⟨rfl, storable.load_of_stored
                (stored_of_writeAtomically isPlainName_index isPlainName_index_beside h)⟩

end RunIndex

namespace Run

/-- A run is read back from its file.  The location is left open, as the identifier may
lead anywhere. -/
theorem load_of_stat {location : Location} {writable : Bool} (storable : run.isStorable = true)
    (found : fs.stat (runFile run.id state) =
      .ok (location, .file (.text run.toJson.pretty) writable)) :
    Run.load run.id state fs = .ok run :=
  load_of_readText storable (readText_eq_ok_iff.mpr ⟨_, _, found⟩)

/-! ## Recording -/

/-- Without a directory no run is recorded.  Some directories on the way may have been
made all the same. -/
theorem on_save_of_not_made {made : FileSystem} {reason : IoError}
    (h : fs.makeDirectories state = (made, .error reason)) (run : Run) :
    (run.save state).on fs = (.error (.files reason), made) := by
  refine Task.on_bind_of_error (fun _ => ?_) ?_
  · exact (isDeaf_writeAtomically _ _).bind fun _ =>
      (Task.isDeaf_ask _ _).bind fun _ => RunIndex.isDeaf_save _ _
  · rw [Task.on_makeDirectories, h]
    rfl

/-- **What recording a run is made of**, when it succeeds: the directory is made, the
file of the run is written, and then the index that was read is written with the run in
it.  The frames of the three parts are given with locations in the files in which each
part was done. -/
theorem exists_parts_of_save (h : (run.save state).on fs = (.ok (), after)) :
    ∃ made middle index, fs.makeDirectories state = (made, .ok ()) ∧ Changes ∅ Set.univ fs made ∧
      Changes {made.placeOf (runFile run.id state),
        made.placeOf ((runFile run.id state).append ".tmp")} ∅ made middle ∧
      middle.stat (runFile run.id state) =
        .ok (made.placeOf (runFile run.id state), .file (.text run.toJson.pretty) true) ∧
      RunIndex.load state middle = .ok index ∧
      Changes (slot (middle.placeOf state) "runs.json") ∅ middle after ∧
      Stored state "runs.json" (index.add run).toJson.pretty after := by
  have opens := makeDirectories_changes fs state
  cases hmade : fs.makeDirectories state with
  | mk made done =>
      rw [hmade] at opens
      cases done with
      | error reason => simp [on_save_of_not_made hmade] at h
      | ok done =>
          cases saveEnds_of_made hmade h with
          | listed written loaded listing =>
              obtain ⟨first, own⟩ := stat_of_writeAtomically (placeOf_runFile_ne made state _) written
              exact ⟨made, _, _, rfl, opens, first, own, loaded,
                changes_of_writeAtomically isPlainName_index isPlainName_index_beside listing,
                stored_of_writeAtomically isPlainName_index isPlainName_index_beside listing⟩

/-- **A run that was recorded is not in the place of the index**, because a run is no
index.  The file of the run is written before the index is read, so in the place of the
index it would be read as an index and refused. -/
theorem placeOf_ne_of_save (storable : run.isStorable = true)
    (h : (run.save state).on fs = (.ok (), after)) :
    fs.placeOf (runFile run.id state) ≠ fs.placeOf (RunIndex.file state) := by
  obtain ⟨made, middle, index, -, opens, first, own, hindex, second, stored⟩ :=
    exists_parts_of_save h
  intro same
  have held := (stat_eq_ok_iff.mp own).2.1
  -- the index can be located before it is written, because only files are
  have located := second.locate_eq_ok_iff.mp stored.located
  have place : after.placeOf state ++ ["runs.json"] = made.placeOf (runFile run.id state) := by
    rw [opens.placeOf, same, RunIndex.placeOf_file, second.placeOf, first.placeOf, opens.placeOf]
  rw [place] at located
  rw [RunIndex.load_eq_ofEntry located, held, RunIndex.ofEntry,
    RunIndex.decodeText_run storable] at hindex
  simp [Except.mapError] at hindex

/-- The file of a run is not beside the index, nor is the index beside the file of a
run.  It is the endings that tell these apart, so it holds for all identifiers. -/
theorem placeOf_runFile_apart (fs : FileSystem) (state : Path) (id : String) :
    fs.placeOf (runFile id state) ≠ fs.placeOf state ++ ["runs.json" ++ ".tmp"] ∧
      fs.placeOf ((runFile id state).append ".tmp") ≠ fs.placeOf (RunIndex.file state) := by
  obtain ⟨directory, name, place, beside⟩ := placeOf_runFile_beside fs state id
  rw [place, beside, RunIndex.placeOf_file]
  constructor
  · intro same
    have last := (List.append_inj' same rfl).2
    exact json_ne_tmp name "runs.json" (List.singleton_injective last)
  · intro same
    have last := (List.append_inj' same rfl).2
    rw [List.singleton_inj, ← String.append_assoc] at last
    exact json_ne_tmp "runs" (name ++ ".json") last.symm

/-- **What recording a run leaves**: the run in its file, and the index with the run in
it.  The index is the one found in the directory that has been made, see the note above.
-/
theorem load_of_save (storable : run.isStorable = true)
    (loaded : RunIndex.load state (fs.makeDirectories state).1 = .ok index)
    (h : (run.save state).on fs = (.ok (), after)) :
    Run.load run.id state after = .ok run ∧ RunIndex.load state after = .ok (index.add run) := by
  have differs := placeOf_ne_of_save storable h
  obtain ⟨made, middle, found, hmade, opens, first, own, hindex, second, stored⟩ :=
    exists_parts_of_save h
  rw [hmade] at loaded
  rw [← opens.placeOf, ← opens.placeOf] at differs
  obtain ⟨apart, apart'⟩ := placeOf_runFile_apart made state run.id
  constructor
  · refine load_of_stat storable (second.stat own ?_)
    rw [first.placeOf, slot, ← RunIndex.placeOf_file]
    rintro (same | same)
    · exact differs same
    · exact apart same
  · have same := RunIndex.load_of_changes loaded first (by simp [differs.symm, apart'.symm])
    obtain rfl := Except.ok.inj (same.symm.trans hindex)
    exact ((RunIndex.isStorable_of_load loaded).add storable).load_of_stored stored

/-- **Why a run is not recorded** where there is an index to be read: something cannot
be written, or the run would take the place of the index.  An index that could be read
before can only become unreadable by the writing of the run itself. -/
theorem save_fails (loaded : RunIndex.load state (fs.makeDirectories state).1 = .ok index)
    {reason : RunError} (h : (run.save state).on fs = (.error reason, after)) :
    reason.isWriteFailure = true ∨
      fs.placeOf (runFile run.id state) = fs.placeOf (RunIndex.file state) := by
  by_cases same : fs.placeOf (runFile run.id state) = fs.placeOf (RunIndex.file state)
  · exact .inr same
  · left
    have opens := makeDirectories_changes fs state
    cases hmade : fs.makeDirectories state with
    | mk made done =>
        rw [hmade] at loaded opens
        cases done with
        | error failure =>
            rw [on_save_of_not_made hmade] at h
            obtain ⟨rfl, -⟩ : _ = reason ∧ _ := by simpa using h
            rfl
        | ok done =>
            cases saveEnds_of_made hmade h with
            | unwritten written => exact isWriteFailure_of_writeAtomically written
            | unread written unread =>
                -- the index is still what it was before the file of the run was written
                obtain ⟨first, -⟩ :=
                  stat_of_writeAtomically (placeOf_runFile_ne made state _) written
                rw [← opens.placeOf, ← opens.placeOf] at same
                have apart := (placeOf_runFile_apart made state run.id).2
                have still := RunIndex.load_of_changes loaded first
                  (by simp [Ne.symm same, apart.symm])
                rw [still] at unread
                contradiction
            | listed written loaded listing => exact isWriteFailure_of_writeAtomically listing

end Run

/-- **Runs survive storage.**  A run that is recorded is read back as it is, from its file and from the
index, where all other runs stay what they were; nothing but a write can fail, unless the run would take
the place of the index; and an index that has been read is the same when it is written and read again. -/
theorem run_survives_storage (storable : run.isStorable = true)
    (loaded : RunIndex.load state (fs.makeDirectories state).1 = .ok index) :
    (∀ after, (run.save state).on fs = (.ok (), after) →
      Run.load run.id state after = .ok run ∧
        ∃ next, RunIndex.load state after = .ok next ∧ next.find? run.id = some run ∧
          ∀ id, id ≠ run.id → next.find? id = index.find? id) ∧
      (∀ reason after, (run.save state).on fs = (.error reason, after) →
        reason.isWriteFailure = true ∨
          fs.placeOf (runFile run.id state) = fs.placeOf (RunIndex.file state)) ∧
      ∀ source before old, RunIndex.load source before = .ok old →
        ∀ target between outcome last, (old.save target).on between = (outcome, last) →
          (outcome = .ok () ∧ RunIndex.load target last = .ok old) ∨
            ∃ reason, outcome = .error reason ∧ reason.isWriteFailure = true := by
  refine ⟨fun after saved => ?_, fun reason after failed => Run.save_fails loaded failed, ?_⟩
  · obtain ⟨own, listed⟩ := Run.load_of_save storable loaded saved
    exact ⟨own, _, listed, index.find?_add run, fun id ne => index.find?_add_of_ne ne⟩
  · intro source before old read target between outcome last saved
    exact RunIndex.load_of_save (RunIndex.isStorable_of_load read) saved

section

open Specimen

/-- A run that is recorded in an empty state directory is there, with the index that lists it. -/
theorem run_survives_storage_specimen :
    Run.load "0a1b2c3" records (savedFiles "" (emptyRun "0a1b2c3").toJson.pretty
        (RunIndex.ofRuns [emptyRun "0a1b2c3"]).toJson.pretty) = .ok (emptyRun "0a1b2c3") ∧
      ∃ index, RunIndex.load records (savedFiles "" (emptyRun "0a1b2c3").toJson.pretty
          (RunIndex.ofRuns [emptyRun "0a1b2c3"]).toJson.pretty) = .ok index ∧
        index.find? "0a1b2c3" = some (emptyRun "0a1b2c3") ∧
        ∀ id, id ≠ "0a1b2c3" → index.find? id = none := by
  have made := (isEmptyDirectory_besideFiles "").ready.makeDirectories
  have loaded : RunIndex.load records ((besideFiles "").makeDirectories records).1 =
      .ok .empty := by
    rw [made]
    rfl
  exact (run_survives_storage (isStorable_emptyRun "0a1b2c3") loaded).1 _
    (on_save_besideFiles "" rfl)

/-- **A run that has the name of the index cannot be recorded**: it takes the place of the index, which
can then not be read. -/
theorem run_named_as_index :
    (emptyRun "runs").isStorable = true ∧
      RunIndex.load records (besideFiles "") = .ok .empty ∧
      ((emptyRun "runs").save records).on (besideFiles "") =
        (.error (.parseIndex (.missingField "runs")),
          spoiltFiles "" (emptyRun "runs").toJson.pretty) ∧
      RunIndex.load records (spoiltFiles "" (emptyRun "runs").toJson.pretty) =
        .error (.parseIndex (.missingField "runs")) :=
  ⟨isStorable_emptyRun "runs", rfl, on_save_named_index "" rfl (isStorable_emptyRun "runs"),
    load_spoiltFiles "" (isStorable_emptyRun "runs")⟩

end

end AliasHoist
