import AliasHoist.Proofs.Runs.InStep

/-!
# How far undoing a run gets

The contents of a run are brought back one after the other, and the first that cannot be brought back
ends it.  As long as the sources of a run are apart, from each other and from what the run keeps, bringing
one back does not bear on the others.  Which ones are brought back can then be told beforehand.

## Main Definitions

* `FileChange.restoredText?`: the content that a source would get, if it can be brought back;
* `restorableFirst`: the changes before the first whose source cannot be brought back;
* `SourcesApart`: the sources of a run are apart;
* `BroughtBack`: some sources have been brought back, and nothing else has changed.

## Main Statements

* `FileChange.restoredText?_of_changes`: what can be brought back does not depend on other files;
* `exists_restoreAll_broughtBack`: bringing contents back gets as far as the first that cannot be;
* `exists_restoreAll_of_all`: it gets through if all of them can be;
* `exists_undoRun_broughtBack`: so does undoing a run, which is recorded anew after that.
-/

namespace AliasHoist

open FileSystem

variable {fs middle after : FileSystem} {state : Path} {id text : String} {run : Run}
  {change : FileChange} {changes back : List FileChange} {written : Set Location}

/-! ## One content -/

namespace FileChange

/-- The file in which a run keeps the content from before a change.  The name is the one
in the record, so a record that was made elsewhere can name a file outside the directory
of the run. -/
def backupFile (change : FileChange) (id : String) (state : Path) : Path :=
  (state.child id).child change.backup

/-- **The content that a source would get**, if its backup can be read and it can be
written.  Both conditions are tested in the files before anything is brought back, which
is what makes it possible to tell beforehand. -/
def restoredText? (change : FileChange) (id : String) (state : Path) (fs : FileSystem) :
    Option String :=
  match fs.readText (change.backupFile id state) with
  | .error _ => none
  | .ok text =>
      match fs.write change.path (.text text) with
      | .error _ => none
      | .ok _ => some text

/-- The two conditions by themselves: the backup is read, and writing its text over the
source succeeds. -/
theorem restoredText?_eq_some_iff :
    change.restoredText? id state fs = some text ↔
      fs.readText (change.backupFile id state) = .ok text ∧
        ∃ after, fs.write change.path (.text text) = .ok after := by
  -- unfolded without its equation, which takes seconds to derive
  delta restoredText?
  cases fs.readText (change.backupFile id state) with
  | error reason => simp
  | ok found =>
      dsimp only
      cases hwrite : fs.write change.path (.text found) with
      | error reason =>
          simp only [reduceCtorEq, false_iff, not_and, not_exists]
          rintro same after
          obtain rfl := Except.ok.inj same
          simp [hwrite]
      | ok written =>
          simp only [Option.some.injEq, Except.ok.injEq]
          constructor
          · rintro rfl
            exact ⟨rfl, written, hwrite⟩
          · exact And.left

/-- One direction of the next lemma; changes of files only go both ways, and so does
this. -/
theorem restoredText?_eq_some_of_changes (changes : Changes written ∅ fs after)
    (source : fs.placeOf change.path ∉ written)
    (backup : fs.placeOf (change.backupFile id state) ∉ written)
    (h : change.restoredText? id state fs = some text) :
    change.restoredText? id state after = some text := by
  rw [restoredText?_eq_some_iff] at h ⊢
  obtain ⟨read, result, hwrite⟩ := h
  obtain ⟨location, located, fileLike, there, -⟩ := write_eq_ok_iff.mp hwrite
  obtain rfl := eq_placeOf_of_locate located
  refine ⟨(changes.readText_eq_ok_iff backup).mpr read, _,
    write_eq_ok_iff.mpr ⟨_, changes.locate located, fileLike, ?_, rfl⟩⟩
  rw [changes.entryAt?_eq source (Set.notMem_empty _)]
  exact there

/-- **What can be brought back does not depend on other files.**  Only the source and
its backup count, and no directory may be made since a source could be missing one. -/
theorem restoredText?_of_changes (changes : Changes written ∅ fs after)
    (source : fs.placeOf change.path ∉ written)
    (backup : fs.placeOf (change.backupFile id state) ∉ written) :
    change.restoredText? id state after = change.restoredText? id state fs := by
  ext text
  constructor
  · refine restoredText?_eq_some_of_changes changes.symm ?_ ?_
    · rwa [changes.placeOf]
    · rwa [changes.placeOf]
  · exact restoredText?_eq_some_of_changes changes source backup

end FileChange

/-- Whether a failure is one of a source or of its backup.  After such a failure the
record of the run has not been touched. -/
def RunError.isOfSource : RunError → Bool
  | .readBackup _ _ | .restore _ _ => true
  | _ => false

/-- A source that can be brought back is the only file that is written.  The content is
that of its backup, whatever it was before. -/
theorem exists_restoreBackup_of_some (h : change.restoredText? id state fs = some text) :
    ∃ after, (restoreBackup change id state).on fs = (.ok (), after) ∧
      Changes {fs.placeOf change.path} ∅ fs after ∧
      after.entryAt? (fs.placeOf change.path) = some (.file (.text text) true) := by
  obtain ⟨read, after, hwrite⟩ := FileChange.restoredText?_eq_some_iff.mp h
  obtain ⟨changes, held, -⟩ := write_changes hwrite
  refine ⟨after, ?_, changes, held⟩
  rw [on_restoreBackup, ← FileChange.backupFile, read]
  simp only [hwrite]

/-- A source that cannot be brought back is left alone.  The reason says that it was the
source or its backup, and not a record. -/
theorem on_restoreBackup_of_none (h : change.restoredText? id state fs = none) :
    ∃ reason, reason.isOfSource = true ∧
      (restoreBackup change id state).on fs = (.error reason, fs) := by
  rw [on_restoreBackup, ← FileChange.backupFile]
  cases hread : fs.readText (change.backupFile id state) with
  | error reason => exact ⟨_, rfl, rfl⟩
  | ok text =>
      dsimp only
      cases hwrite : fs.write change.path (.text text) with
      | error reason => exact ⟨_, rfl, rfl⟩
      | ok written =>
          have restored := FileChange.restoredText?_eq_some_iff.mpr ⟨hread, written, hwrite⟩
          exact absurd (h.symm.trans restored) (by simp)

/-! ## Sources that are apart -/

/-- **The sources of a run are apart**: they are different files, none of them is the
backup of one that is listed after it, and none is a record of the run.  The condition
on backups goes one way only, since a source that is written after a backup has been
used does no harm. -/
structure SourcesApart (state : Path) (id : String) (changes : List FileChange) (fs : FileSystem) :
    Prop where
  distinct : changes.Pairwise fun a b => fs.placeOf a.path ≠ fs.placeOf b.path
  backups : changes.Pairwise fun a b => fs.placeOf a.path ≠ fs.placeOf (b.backupFile id state)
  records : ∀ change ∈ changes, fs.placeOf change.path ∉ recordSlots (fs.placeOf state) id

namespace SourcesApart

/-- What is apart stays so when the first change is dropped. -/
theorem of_cons (h : SourcesApart state id (change :: changes) fs) :
    SourcesApart state id changes fs where
  distinct := (List.pairwise_cons.mp h.distinct).2
  backups := (List.pairwise_cons.mp h.backups).2
  records other mem := h.records other (List.mem_cons_of_mem _ mem)

/-- Being apart is a matter of paths and not of files. -/
theorem of_changes {made : Set Location} (h : SourcesApart state id changes fs)
    (elsewhere : Changes written made fs after) : SourcesApart state id changes after where
  distinct := by
    simp only [elsewhere.placeOf]
    exact h.distinct
  backups := by
    simp only [elsewhere.placeOf]
    exact h.backups
  records other mem := by
    rw [elsewhere.placeOf, elsewhere.placeOf]
    exact h.records other mem

end SourcesApart

/-! ## Bringing contents back -/

/-- **The changes before the first whose source cannot be brought back.**  It is
computed from the files at the start, though in the program each source is looked at
after those before it have been written; that this comes to the same is
`exists_restoreAll_broughtBack`. -/
def restorableFirst (id : String) (state : Path) (fs : FileSystem) (changes : List FileChange) :
    List FileChange :=
  changes.takeWhile fun change => (change.restoredText? id state fs).isSome

/-- They are changes of the run. -/
theorem mem_of_mem_restorableFirst (h : change ∈ restorableFirst id state fs changes) :
    change ∈ changes :=
  (List.takeWhile_sublist _).subset h

/-- Which sources can be brought back does not depend on other files.  This carries it
over the first write in the induction below. -/
theorem restorableFirst_of_changes (elsewhere : Changes written ∅ fs after)
    (sources : ∀ change ∈ changes, fs.placeOf change.path ∉ written)
    (backups : ∀ change ∈ changes, fs.placeOf (change.backupFile id state) ∉ written) :
    restorableFirst id state after changes = restorableFirst id state fs changes := by
  induction changes with
  | nil => rfl
  | cons change rest ih =>
      have first := FileChange.restoredText?_of_changes elsewhere (sources change List.mem_cons_self)
        (backups change List.mem_cons_self)
      have later := ih (fun other mem => sources other (List.mem_cons_of_mem _ mem))
        fun other mem => backups other (List.mem_cons_of_mem _ mem)
      simp only [restorableFirst, List.takeWhile_cons, first] at later ⊢
      rw [later]

/-- **Some sources have been brought back**, and nothing else has changed.  The content
of each is the one that could be told at the start. -/
structure BroughtBack (id : String) (state : Path) (back : List FileChange)
    (fs after : FileSystem) : Prop where
  changes : Changes {location | ∃ change ∈ back, location = fs.placeOf change.path} ∅ fs after
  held : ∀ change ∈ back, ∃ text, change.restoredText? id state fs = some text ∧
    after.entryAt? (fs.placeOf change.path) = some (.file (.text text) true)

namespace BroughtBack

/-- Nothing brought back is nothing changed. -/
theorem nil (fs : FileSystem) : BroughtBack id state [] fs fs where
  changes := .refl fs
  held := by simp

/-- One more source is brought back before the others.  The rest was told from the files
after the first write, and by `restoredText?_of_changes` the same could be told from
those before it. -/
theorem cons (first : Changes {fs.placeOf change.path} ∅ fs middle)
    (restored : change.restoredText? id state fs = some text)
    (held : middle.entryAt? (fs.placeOf change.path) = some (.file (.text text) true))
    (rest : BroughtBack id state back middle after)
    (apart : SourcesApart state id (change :: changes) fs) (sub : back ⊆ changes) :
    BroughtBack id state (change :: back) fs after where
  changes := by
    refine (first.mono ?_ subset_rfl).trans (rest.changes.mono ?_ subset_rfl)
    · rintro location rfl
      exact ⟨change, List.mem_cons_self, rfl⟩
    · rintro location ⟨other, mem, rfl⟩
      exact ⟨other, List.mem_cons_of_mem _ mem, first.placeOf _⟩
  held := by
    have distinct := (List.pairwise_cons.mp apart.distinct).1
    have backups := (List.pairwise_cons.mp apart.backups).1
    intro other mem
    rcases List.mem_cons.mp mem with rfl | mem
    · refine ⟨text, restored, rest.changes.entryAt?_eq_some ?_ held⟩
      rintro ⟨later, hlater, same⟩
      rw [first.placeOf] at same
      exact distinct later (sub hlater) same
    · obtain ⟨found, hfound, there⟩ := rest.held other mem
      have old : other ∈ changes := sub mem
      rw [first.placeOf] at there
      refine ⟨found, ?_, there⟩
      rw [← hfound]
      refine (FileChange.restoredText?_of_changes first ?_ ?_).symm
      · exact Ne.symm (distinct other old)
      · exact Ne.symm (backups other old)

/-- What else there is, is as it was.  Other sources of the run included: those after
the first failure are untouched. -/
theorem entryAt?_eq (h : BroughtBack id state back fs after) {location : Location}
    (other : ∀ change ∈ back, location ≠ fs.placeOf change.path) :
    after.entryAt? location = fs.entryAt? location := by
  refine h.changes.entryAt?_eq ?_ (Set.notMem_empty _)
  rintro ⟨change, mem, same⟩
  exact other change mem same

end BroughtBack

/-- **Bringing contents back gets as far as the first that cannot be brought back**, if
the sources are apart.  An induction on the changes, each step of which either ends it
or goes on by `BroughtBack.cons`. -/
theorem exists_restoreAll_broughtBack (apart : SourcesApart state id changes fs) :
    ∃ outcome after, (restoreAll id state changes).on fs = (outcome, after) ∧
      BroughtBack id state (restorableFirst id state fs changes) fs after ∧
      (outcome = .ok () ∧ restorableFirst id state fs changes = changes ∨
        restorableFirst id state fs changes ≠ changes ∧
          ∃ reason, outcome = .error reason ∧ reason.isOfSource = true) := by
  induction changes generalizing fs with
  | nil => exact ⟨.ok (), fs, rfl, .nil fs, .inl ⟨rfl, rfl⟩⟩
  | cons change rest ih =>
      rw [on_restoreAll_cons]
      cases hchange : change.restoredText? id state fs with
      | none =>
          obtain ⟨reason, ofSource, failed⟩ := on_restoreBackup_of_none hchange
          have stops : restorableFirst id state fs (change :: rest) = [] := by
            simp [restorableFirst, hchange]
          rw [failed, stops]
          exact ⟨_, _, rfl, .nil fs, .inr ⟨by simp, reason, rfl, ofSource⟩⟩
      | some text =>
          obtain ⟨middle, restored, first, held⟩ := exists_restoreBackup_of_some hchange
          have distinct := (List.pairwise_cons.mp apart.distinct).1
          have backups := (List.pairwise_cons.mp apart.backups).1
          have same : restorableFirst id state middle rest = restorableFirst id state fs rest :=
            restorableFirst_of_changes first (fun other mem => Ne.symm (distinct other mem))
              fun other mem => Ne.symm (backups other mem)
          have goesOn : restorableFirst id state fs (change :: rest) =
              change :: restorableFirst id state fs rest := by
            simp [restorableFirst, hchange]
          obtain ⟨outcome, after, run, further, ends⟩ := ih (apart.of_cons.of_changes first)
          rw [same] at further ends
          rw [restored, goesOn]
          refine ⟨outcome, after, run, ?_, ends.imp ?_ ?_⟩
          · exact further.cons first hchange held apart fun _ => mem_of_mem_restorableFirst
          · exact And.imp_right (congrArg (change :: ·))
          · exact And.imp_left fun differs same => differs (List.cons.inj same).2

/-- **All contents are brought back** if each of them can be, and the sources are apart.
It is the case in which `restorableFirst` is everything. -/
theorem exists_restoreAll_of_all (apart : SourcesApart state id changes fs)
    (all : ∀ change ∈ changes, ∃ text, change.restoredText? id state fs = some text) :
    ∃ after, (restoreAll id state changes).on fs = (.ok (), after) ∧
      BroughtBack id state changes fs after := by
  have whole : restorableFirst id state fs changes = changes := by
    refine List.takeWhile_eq_self_iff.mpr fun change mem => ?_
    obtain ⟨text, restored⟩ := all change mem
    rw [restored]
    rfl
  obtain ⟨outcome, after, restored, back, ⟨rfl, -⟩ | ⟨differs, -⟩⟩ :=
    exists_restoreAll_broughtBack apart
  · exact ⟨after, restored, whole ▸ back⟩
  · exact absurd whole differs

/-! ## Undoing a run -/

/-- The state directory of a run that is found is there.  Its file was found in it. -/
theorem isReady_of_load (plain : IsPlainName (id ++ ".json"))
    (h : Run.load id state fs = .ok run) : IsReady state fs := by
  obtain ⟨_, _, found⟩ := Run.exists_stat_of_load h
  exact isReady_of_locate_child plain (locate_of_stat found)

/-- **How far undoing a run gets**: to the first source that cannot be brought back, or
else all of them are brought back and the run is recorded anew.  In the second case the
outcome is that of recording the run, which `SaveEnds` takes apart. -/
theorem exists_undoRun_broughtBack (apart : SourcesApart state id run.changes fs) :
    ∃ middle, BroughtBack id state (restorableFirst id state fs run.changes) fs middle ∧
      ((∃ reason, reason.isOfSource = true ∧ (undoRun id state run).on fs = (.error reason, middle)) ∨
        restorableFirst id state fs run.changes = run.changes ∧
          (undoRun id state run).on fs = (run.undone.save state).on middle) := by
  obtain ⟨outcome, middle, restored, back, ends⟩ := exists_restoreAll_broughtBack apart
  refine ⟨middle, back, ?_⟩
  rw [on_undoRun_eq, restored]
  rcases ends with ⟨rfl, all⟩ | ⟨-, reason, rfl, ofSource⟩
  · exact .inr ⟨all, rfl⟩
  · exact .inl ⟨reason, ofSource, rfl⟩

end AliasHoist
