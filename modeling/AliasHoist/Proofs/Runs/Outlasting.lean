import AliasHoist.Proofs.Runs.Cleaning
import AliasHoist.Proofs.Runs.Sparing
import AliasHoist.Proofs.World.Comparing

/-!
# Kept runs outlast cleaning

A run that is kept when old ones are forgotten can be undone as if nothing had been forgotten, as long as
it has to do with nothing that went away: the outcome is the same, the same is said, and the files that
are left differ only in what went away.

A run has to do with the files of another one when it has a source in that one's directory.  Such a
source goes away with the directory, and then the run cannot be undone.

## Main Definitions

* `Run.Avoids`: a run has to do with none of some locations;
* `StoreStep`: what can happen to a state directory;
* `TakesOldOnly`: cleaning takes the old runs and nothing else.

## Main Statements

* `Tidy.of_steps`: whatever happens leaves a state directory tidy;
* `Tidy.alike_revertRun`: a run that is kept is undone as it would have been;
* `clean_takes_old_runs_only`: cleaning takes the old runs and nothing else.
-/

namespace AliasHoist

open FileSystem

variable {fs fs' middle before after : FileSystem} {state : Path} {id : String} {run : Run}
  {change : FileChange} {runs kept : List Run} {touched : Set Location} {cutoff : Timestamp}

/-! ## Tasks of the store that say nothing -/

/-- Writing a file whole says nothing on the console. -/
theorem isSilent_writeAtomically (path : Path) (text : String) :
    (writeAtomically path text).IsSilent :=
  (Task.isSilent_change _ _).bind fun _ => Task.isSilent_change _ _

/-- Neither does writing the index. -/
theorem RunIndex.isSilent_save (index : RunIndex) (state : Path) : (index.save state).IsSilent :=
  (Task.isSilent_changePartly _ _).bind fun _ => isSilent_writeAtomically _ _

/-- Neither does recording a run, so what is said does not depend on the runs that are
listed. -/
theorem Run.isSilent_save (run : Run) (state : Path) : (run.save state).IsSilent :=
  (Task.isSilent_changePartly _ _).bind fun _ => (isSilent_writeAtomically _ _).bind fun _ =>
    (Task.isSilent_ask _ _).bind fun _ => RunIndex.isSilent_save _ _

/-! ## Runs that have nothing to do with a difference -/

/-- **A run that has nothing to do with some locations**: neither its sources nor its
backups are there or reached through there.  It asks for the way to a file as well as
for its end, since a directory on the way that is gone makes a path lead nowhere. -/
def Run.Avoids (run : Run) (state : Path) (touched : Set Location) (fs : FileSystem) : Prop :=
  ∀ change ∈ run.changes, fs.Avoids touched change.path ∧
    fs.Avoids touched (change.backupFile run.id state)

/-- A file that has nothing to do with a difference has the same digest on both sides.
-/
theorem fileDigest_eq {path : Path} (keeps : Keeps touched before after)
    (apart : before.Avoids touched path) : fileDigest path after = fileDigest path before := by
  rw [fileDigest, fileDigest, keeps.read_eq apart]

/-- So the question whether it has been changed since the run has the same answer. -/
theorem checkUnchanged_eq (keeps : Keeps touched before after)
    (apart : before.Avoids touched change.path) :
    checkUnchanged id after change = checkUnchanged id before change := by
  rw [checkUnchanged, checkUnchanged, keeps.exists?_eq apart, fileDigest_eq keeps apart]

/-- The same for all files of the run, with the same failure for the first that was
changed. -/
theorem checkAllUnchanged_eq {changes : List FileChange} (keeps : Keeps touched before after)
    (apart : ∀ change ∈ changes, before.Avoids touched change.path) :
    checkAllUnchanged id after changes = checkAllUnchanged id before changes := by
  induction changes with
  | nil => rfl
  | cons change rest ih =>
      rw [checkAllUnchanged, checkAllUnchanged, checkUnchanged_eq keeps (apart change List.mem_cons_self),
        ih fun other mem => apart other (List.mem_cons_of_mem _ mem)]

/-- **A run can be undone in both or in neither.**  The reasons are the same too, as
they name files of the run. -/
theorem checkRevertible_eq (keeps : Keeps touched before after)
    (apart : run.Avoids state touched before) (force : Bool) :
    checkRevertible run id force after = checkRevertible run id force before := by
  rw [checkRevertible, checkRevertible,
    checkAllUnchanged_eq keeps fun change mem => (apart change mem).1]

/-! ## Bringing contents back in two worlds -/

section

variable {start : FileSystem} {left right : World}
  (h : World.Like (DifferAt start touched) left right)
include h

/-- **A content is brought back in both worlds or in neither**, and what differs
afterwards is what differed before: the backup is read and the source is written away
from the difference. -/
theorem alike_restoreBackup (source : start.Avoids touched change.path)
    (backup : start.Avoids touched (change.backupFile id state)) :
    Task.Alike (World.Like (DifferAt start touched)) (restoreBackup change id state left)
      (restoreBackup change id state right) := by
  have backup := backup.of_workingDirectory_eq h.files.directory_eq
  refine (Task.alike_ask h _ (h.files.keeps.readText_eq backup)).bind_same fun text _ _ h => ?_
  exact Task.alike_writeText h source text _

/-- **Contents are brought back in both worlds**, as far as that gets.  The difference
is fixed at the start, so that the induction does not have to follow how it moves. -/
theorem alike_restoreAll {changes : List FileChange}
    (apart : ∀ change ∈ changes, start.Avoids touched change.path ∧
      start.Avoids touched (change.backupFile id state)) :
    Task.Alike (World.Like (DifferAt start touched)) (restoreAll id state changes left)
      (restoreAll id state changes right) := by
  induction changes generalizing left right with
  | nil => exact .ok h
  | cons change rest ih =>
      obtain ⟨source, backup⟩ := apart change List.mem_cons_self
      refine (alike_restoreBackup h source backup).bind_same fun _ _ _ h => ?_
      refine (Task.alike_print h _).bind_same fun _ _ _ h => ?_
      exact ih h fun other mem => apart other (List.mem_cons_of_mem _ mem)

end

/-! ## Recording a run in two directories -/

/-- **What recording a run leaves is the same**, the index apart.  Success is assumed on
both sides, which `Tidy.exists_save` provides; the index has to be among the locations
that may differ, because it lists other runs. -/
theorem Tidy.keeps_of_saves (h : Tidy state runs fs) (h' : Tidy state kept fs')
    (isRunId : IsRunId run.id) (keeps : Keeps touched fs fs')
    (index : fs.placeOf state ++ ["runs.json"] ∈ touched) {after' : FileSystem}
    (saved : (run.save state).on fs = (.ok (), after))
    (saved' : (run.save state).on fs' = (.ok (), after')) : Keeps touched after after' := by
  have changes := Run.save_changes h.ready run isRunId
  have changes' := Run.save_changes h'.ready run isRunId
  rw [saved] at changes
  rw [saved'] at changes'
  obtain ⟨stored, listed⟩ := Run.save_spec h.ready run isRunId saved (by simp)
  obtain ⟨stored', listed'⟩ := Run.save_spec h'.ready run isRunId saved' (by simp)
  have beside := (listed _ h.ofEntry).2.besideFree
  have beside' := (listed' _ h'.ofEntry).2.besideFree
  have held := stored.held
  have held' := stored'.held
  have free := stored.besideFree
  have free' := stored'.besideFree
  rw [changes.placeOf] at held free beside
  rw [changes'.placeOf, keeps.placeOf] at held' free' beside'
  rw [keeps.placeOf] at changes'
  refine ⟨?_, fun location untouched => ?_⟩
  · rw [changes'.workingDirectory_eq, keeps.workingDirectory_eq, changes.workingDirectory_eq]
  · by_cases slot : location ∈ recordSlots (fs.placeOf state) run.id
    · rcases slot with (rfl | rfl) | (rfl | rfl)
      · rw [held, held']
      · rw [free, free']
      · exact absurd index untouched
      · rw [beside, beside']
    · rw [changes'.entryAt?_eq slot (Set.notMem_empty _), keeps.entryAt?_eq _ untouched,
        changes.entryAt?_eq slot (Set.notMem_empty _)]

/-! ## Undoing a run in two directories -/

/-- **A directory lists what another one lists, without the runs from before some
time.**  Up to order, as the index after cleaning has the runs in the order in which
they were gone through. -/
def ListsTheRest (state : Path) (cutoff : Timestamp) (fs after : FileSystem) : Prop :=
  ∃ index rest, RunIndex.load state fs = .ok index ∧ RunIndex.load state after = .ok rest ∧
    rest.runs.Perm (index.runs.filter fun entry => !entry.2.time.before cutoff)

/-- Being in step on both sides reduces it to the runs. -/
theorem listsTheRest_of_inStep (h : KeptInStep state runs fs) (h' : KeptInStep state kept after)
    (rest : kept.Perm (runs.filter fun run => !run.time.before cutoff)) :
    ListsTheRest state cutoff fs after := by
  refine ⟨_, _, h.load_index, h'.load_index, ?_⟩
  rw [RunIndex.ofRuns, RunIndex.ofRuns, List.filter_map]
  exact rest.map _

/-- What is kept does not depend on which runs have been undone.  Undoing changes no
date, so it commutes with leaving out old runs. -/
theorem markUndone_perm (rest : kept.Perm (runs.filter fun run => !run.time.before cutoff)) :
    (markUndone id kept).Perm ((markUndone id runs).filter fun run => !run.time.before cutoff) := by
  have time (run : Run) : (if run.id = id then run.undone else run).time = run.time := by
    split <;> rfl
  rw [markUndone, markUndone, List.filter_map]
  have same : ((fun run : Run => !run.time.before cutoff) ∘
      fun run : Run => if run.id = id then run.undone else run) =
        fun run => !run.time.before cutoff := by
    funext run
    simp only [Function.comp_apply, time]
  rw [same]
  exact rest.map _

/-- **Two directories that differ in what was cleared**, and of which one lists the rest
of the other.  This is the relation that undoing a run preserves; the files alone would
not do, since the index is written again. -/
structure DifferAsCleared (state : Path) (cutoff : Timestamp) (touched : Set Location)
    (left right : FileSystem) : Prop where
  keeps : Keeps touched left right
  lists : ListsTheRest state cutoff left right

namespace Tidy

variable (h : Tidy state runs fs) (h' : Tidy state kept fs') (room : HasRoom state)
  (keeps : Keeps touched fs fs') (index : fs.placeOf state ++ ["runs.json"] ∈ touched)
  (rest : kept.Perm (runs.filter fun run => !run.time.before cutoff)) (mem : run ∈ kept)
  (apart : run.Avoids state touched fs)
include h

/-- Bringing contents back leaves the directory tidy in whatever world.  It restates
`Tidy.of_restoreAll` for a task that is run in a world, where its console is given. -/
theorem files_of_restoreAll (mem : run ∈ runs) (id : String) {world : World}
    (files : world.files = fs) :
    Tidy state runs (Task.worldAfter (restoreAll id state run.changes world)).files := by
  rw [(isDeaf_restoreAll id state run.changes).files_worldAfter, files]
  exact h.of_restoreAll mem id

/-- A run that has been undone is recorded anew in whatever world.  The console is as
before, because recording says nothing. -/
theorem exists_save_undone_eq (room : HasRoom state) (mem : run ∈ runs) {world : World}
    (files : world.files = fs) :
    ∃ after, (run.undone.save state).on fs = (.ok (), after) ∧
      run.undone.save state world = .ok () { world with files := after } ∧
      Tidy state (markUndone run.id runs) after := by
  obtain ⟨after, saved, tidy⟩ := h.exists_save_undone room mem
  exact ⟨after, saved, (Run.isSilent_save _ _).eq_ok_of_on (Run.isDeaf_save _ _) (files ▸ saved), tidy⟩

include h' room keeps index rest mem apart

/-- **A run is undone in both directories or in neither**, once it has been found that
it can be.  Contents are brought back in both by `alike_restoreAll`; the records can be
written in both because both directories are tidy. -/
theorem alike_undoRun {left right : World}
    (same : World.Like (fun l r => l = fs ∧ r = fs') left right) :
    Task.Alike (World.Like (DifferAsCleared state cutoff touched)) (undoRun run.id state run left)
      (undoRun run.id state run right) := by
  have mem' : run ∈ runs := List.mem_of_mem_filter (rest.mem_iff.mp mem)
  refine (Task.alike_print same _).bind (fun _ _ _ failed _ _ => by contradiction) ?_
  rintro - left right - - ⟨said, rfl, rfl⟩
  refine (alike_restoreAll ⟨said, rfl, keeps⟩ apart).bind ?_ ?_
  · intro reason left' right' failed failed' differ
    have tidy := h.files_of_restoreAll mem' run.id rfl
    have tidy' := h'.files_of_restoreAll mem run.id rfl
    rw [failed] at tidy
    rw [failed'] at tidy'
    exact ⟨differ.console_eq, differ.files.keeps,
      listsTheRest_of_inStep tidy.toKeptInStep tidy'.toKeptInStep rest⟩
  · rintro ⟨⟩ left' right' restored restored' differ
    have tidy := h.files_of_restoreAll mem' run.id rfl
    have tidy' := h'.files_of_restoreAll mem run.id rfl
    rw [restored] at tidy
    rw [restored'] at tidy'
    change Tidy state runs left'.files at tidy
    change Tidy state kept right'.files at tidy'
    obtain ⟨after, saved, result, marked⟩ := tidy.exists_save_undone_eq room mem' rfl
    obtain ⟨after', saved', result', marked'⟩ := tidy'.exists_save_undone_eq room mem rfl
    have isRunId : IsRunId run.undone.id := (h'.keepable run mem).isRunId
    have cleared : DifferAsCleared state cutoff touched after after' := by
      refine ⟨tidy.keeps_of_saves tidy' isRunId differ.files.keeps ?_ saved saved', ?_⟩
      · rw [placeOf_of_workingDirectory_eq differ.files.directory_eq]
        exact index
      · exact listsTheRest_of_inStep marked.toKeptInStep marked'.toKeptInStep (markUndone_perm rest)
    have recorded : World.Like (DifferAsCleared state cutoff touched) { left' with files := after }
        { right' with files := after' } := ⟨differ.console_eq, cleared⟩
    refine .of_ok result result' ((Task.alike_log recorded _ _ _).bind_same fun _ _ _ logged => ?_)
    exact Task.alike_print logged _

/-- **A run that is kept is undone as if nothing had been cleared.**  The run is found
in both, as its file is none of those that went, and it can be undone in both or in
neither. -/
theorem alike_revertRun (force : Bool) (console : Console) :
    Task.Alike (World.Like (DifferAsCleared state cutoff touched))
      (revertRun run.id force state { files := fs, console })
      (revertRun run.id force state { files := fs', console }) := by
  have mem' : run ∈ runs := List.mem_of_mem_filter (rest.mem_iff.mp mem)
  have same : World.Like (fun l r => l = fs ∧ r = fs') { files := fs, console }
      { files := fs', console } := ⟨rfl, rfl, rfl⟩
  have unchanged (left right : World) (same : World.Like (fun l r => l = fs ∧ r = fs') left right) :
      World.Like (DifferAsCleared state cutoff touched) left right := by
    obtain ⟨said, rfl, rfl⟩ := same
    exact ⟨said, keeps, listsTheRest_of_inStep h.toKeptInStep h'.toKeptInStep rest⟩
  rw [revertRun_eq]
  refine .of_ok (Task.ask_eq_ok _ (h.load mem')) (Task.ask_eq_ok _ (h'.load mem)) ?_
  refine (Task.alike_ask same _ (checkRevertible_eq keeps apart force)).bind ?_ ?_
  · exact fun _ left right _ _ same => unchanged left right same
  · exact fun _ left right _ _ same => h.alike_undoRun h' room keeps index rest mem apart same

end Tidy

/-! ## Steps -/

/-- **Keeping a backup** makes the directory of the run and writes the backup, if it
gets that far.  No failure is excluded, so a backup that could not be written is covered
as well. -/
theorem saveBackup_changes (ready : IsReady state fs) (plain : IsPlainName id) (path : Path)
    (text : String) :
    Changes {fs.placeOf state ++ [id, backupName path]} {fs.placeOf state ++ [id]} fs
      ((saveBackup path text id state).on fs).2 := by
  have opens := (ready.opened_changes plain).mono
    (Set.empty_subset {fs.placeOf state ++ [id, backupName path]}) subset_rfl
  rw [opened] at opens
  rw [on_saveBackup]
  rcases hmake : fs.makeDirectories (state.child id) with ⟨made, _ | _⟩
  · rw [hmake] at opens
    exact opens
  · rw [hmake] at opens
    dsimp only
    cases hwrite : made.write ((state.child id).child (backupName path)) (.text text) with
    | error reason => exact opens
    | ok written =>
        have writes := (write_changes hwrite).1
        rw [placeOf_backup plain, opens.placeOf] at writes
        exact opens.trans (writes.mono subset_rfl (Set.empty_subset _))

/-- Keeping a backup leaves the directory tidy.  The directory it makes is that of a
run, and none of a record. -/
theorem Tidy.of_saveBackup (h : Tidy state runs fs) (isRunId : IsRunId id) (path : Path)
    (text : String) : Tidy state runs ((saveBackup path text id state).on fs).2 := by
  have changes := saveBackup_changes h.ready isRunId.isPlainName path text
  refine h.of_keeps (Keeps.of_changes changes) (h.ready.of_changes changes) ?_ fun other isRunId' => ?_
  · rintro location ⟨name, rfl | rfl⟩ (there | there)
    · simp at there
    · exact isRunId.ne_json name (by simpa using there)
    · simp at there
    · exact isRunId.ne_tmp (name ++ ".json") (by simpa using there)
  · rw [changes.fileAt?_eq (by simp)]
    exact h.noFile other isRunId'

/-- **What can happen to a state directory.**  The identifiers that have been given so far are kept, because
a new run gets a new one. -/
inductive StoreStep (state : Path) :
    List String × FileSystem → List String × FileSystem → Prop where
  /-- A content is kept for a run. -/
  | backUp {used : List String} {fs : FileSystem} (path : Path) (text id : String)
      (isRunId : IsRunId id) :
      StoreStep state (used, fs) (used, ((saveBackup path text id state).on fs).2)
  /-- A new run is recorded.  None of its sources is where records or the directories of runs are. -/
  | record {used : List String} {fs : FileSystem} (run : Run) (isRunId : IsRunId run.id)
      (fresh : run.id ∉ used) (storable : run.isStorable = true) (applied : run.status = .applied)
      (canRevert : run.canRevert = true)
      (sources : ∀ change ∈ run.changes,
        fs.placeOf change.path ∉ recordPlaces (fs.placeOf state) ∪ runPlaces (fs.placeOf state)) :
      StoreStep state (used, fs) (run.id :: used, ((run.save state).on fs).2)
  /-- A run is undone, or not. -/
  | revert {used : List String} {fs : FileSystem} (id : String) (isRunId : IsRunId id) (force : Bool) :
      StoreStep state (used, fs) (used, ((revertRun id force state).on fs).2)
  /-- Old runs are forgotten, in whatever order. -/
  | clean {used : List String} {fs : FileSystem} (order : List Run → List Run)
      (same : ∀ runs, (order runs).Perm runs) (keepDays : Nat) (now : Timestamp) :
      StoreStep state (used, fs) (used, ((cleanRunsIn order keepDays now state).on fs).2)
  /-- Something else happens, as when sources are edited, but not to the records, and without a file coming
  to be where runs have their directories. -/
  | elsewhere {used : List String} {fs after : FileSystem} (ready : IsReady state after)
      (keeps : Keeps (recordPlaces (fs.placeOf state))ᶜ fs after)
      (noFile : ∀ id, IsRunId id → after.fileAt? (fs.placeOf state ++ [id]) = none) :
      StoreStep state (used, fs) (used, after)

namespace Tidy

/-- **Forgetting old runs leaves the directory tidy.**  A number of days that the
calendar cannot go back is no obstacle: then nothing is forgotten. -/
theorem of_cleanRunsIn (h : Tidy state runs fs) (room : HasRoom state)
    {order : List Run → List Run} (same : ∀ runs, (order runs).Perm runs) (keepDays : Nat)
    (now : Timestamp) :
    ∃ next, Tidy state next ((cleanRunsIn order keepDays now state).on fs).2 ∧ next ⊆ runs := by
  rw [on_cleanRunsIn h.load_index, RunIndex.values_ofRuns]
  cases now.minusDays? keepDays with
  | none => exact ⟨runs, h, List.Subset.refl _⟩
  | some cutoff =>
      obtain ⟨after, done, -, -, tidy⟩ := h.exists_forgetOld room (same runs) (·.time.before cutoff)
      dsimp only
      rw [done]
      exact ⟨_, tidy, fun run mem => (same runs).mem_iff.mp (List.mem_of_mem_filter mem)⟩

/-- **A step leaves the directory tidy.**  One case for each kind of step, and each is a
lemma about one operation in a tidy directory. -/
theorem of_step {used used' : List String} (h : Tidy state runs fs) (room : HasRoom state)
    (known : runs.map (·.id) ⊆ used) (step : StoreStep state (used, fs) (used', after)) :
    ∃ next, Tidy state next after ∧ next.map (·.id) ⊆ used' := by
  cases step with
  | backUp path text id isRunId => exact ⟨runs, h.of_saveBackup isRunId path text, known⟩
  | record run isRunId fresh storable applied canRevert sources =>
      refine ⟨runs ++ [run], h.of_saved_new room isRunId storable (by simp [applied, canRevert]) sources
        fun mem => fresh (known mem), ?_⟩
      rw [List.map_append, List.append_subset]
      exact ⟨List.subset_cons_of_subset _ known, by simp⟩
  | revert id isRunId force =>
      rcases h.revertRun_cases room isRunId force with ⟨reason, after, failed, tidy⟩ |
        ⟨after, done, tidy⟩
      · rw [failed]
        exact ⟨runs, tidy, known⟩
      · rw [done]
        exact ⟨_, tidy, by rwa [ids_markUndone]⟩
  | clean order same keepDays now =>
      obtain ⟨next, tidy, sub⟩ := h.of_cleanRunsIn room same keepDays now
      exact ⟨next, tidy, List.Subset.trans (List.map_subset _ sub) known⟩
  | elsewhere ready keeps noFile =>
      exact ⟨runs, h.of_keeps keeps ready (fun location record apart => apart record) noFile, known⟩

/-- **Whatever happens leaves the directory tidy.**  It is where `TakesOldOnly` gets its
tidy directory from. -/
theorem of_steps {start finish : List String × FileSystem}
    (steps : Relation.ReflTransGen (StoreStep state) start finish) (room : HasRoom state)
    (h : Tidy state runs start.2) (known : runs.map (·.id) ⊆ start.1) :
    ∃ next, Tidy state next finish.2 ∧ next.map (·.id) ⊆ finish.1 := by
  induction steps with
  | refl => exact ⟨runs, h, known⟩
  | tail _ step ih =>
      obtain ⟨middle, tidy, ids⟩ := ih
      exact tidy.of_step room ids step

end Tidy

/-! ## Cleaning -/

/-- The runs of an index from before some time.  Runs from the cutoff itself are not
among them. -/
def RunIndex.olderThan (index : RunIndex) (cutoff : Timestamp) : List Run :=
  (index.runs.map (·.2)).filter (·.time.before cutoff)

/-- **Cleaning takes the old runs and nothing else.**  It tells how many they were; their directories and
files are gone, everything else is as it was, the index lists the other runs, and each of these, if it has
nothing to do with what is gone, is undone as it would have been: with the same outcome, saying the same,
and leaving the same files but for what is gone. -/
structure TakesOldOnly (clean : Task RunError Nat) (state : Path) (cutoff : Timestamp)
    (index : RunIndex) (fs after : FileSystem) : Prop where
  done : clean.on fs = (.ok (index.olderThan cutoff).length, after)
  gone : Gone (fs.placeOf state) (index.olderThan cutoff) fs after
  keeps : Keeps (cleared (fs.placeOf state) (index.olderThan cutoff)) fs after
  lists : ListsTheRest state cutoff fs after
  undone : ∀ entry ∈ index.runs, entry.2.time.before cutoff = false →
    entry.2.Avoids state (cleared (fs.placeOf state) (index.olderThan cutoff)) fs →
      ∀ force console,
        Task.Alike (World.Like (DifferAsCleared state cutoff
            (cleared (fs.placeOf state) (index.olderThan cutoff))))
          (revertRun entry.1 force state { files := fs, console })
          (revertRun entry.1 force state { files := after, console })

/-- What may be cleared is in the state directory.  Hence no path that stays outside of
it has anything to do with cleaning. -/
theorem inside_of_mem_cleared {place location : Location} {old : List Run}
    (h : location ∈ cleared place old) : place <+: location ∧ location ≠ place := by
  rcases h with rfl | ⟨run, -, ⟨rest, rfl⟩ | rfl⟩
  · exact ⟨List.prefix_append _ _, by simp⟩
  · rw [List.append_assoc]
    exact ⟨List.prefix_append _ _, by simp⟩
  · exact ⟨List.prefix_append _ _, by simp⟩

/-- **The backups of a run that is kept have nothing to do with what is cleared**, if
they have plain names, as all backups have that were kept for the run.  For such runs
only the sources have to be looked at. -/
theorem Tidy.avoids_backupFile {old : List Run} (h : Tidy state runs fs) (isRunId : IsRunId run.id)
    (kept : run.id ∉ old.map (·.id)) (plain : IsPlainName change.backup) :
    fs.Avoids (cleared (fs.placeOf state) old) (change.backupFile run.id state) := by
  have apart (rest : List String) :
      fs.placeOf state ++ run.id :: rest ∉ cleared (fs.placeOf state) old := by
    rintro (same | there)
    · obtain ⟨named, -⟩ : run.id = "runs" ++ ".json" ∧ rest = [] := by simpa using same
      exact isRunId.ne_json "runs" named.symm
    · exact isRunId.not_mem_traces _ kept rest there
  have directory := avoids_of_direct h.direct fun location (mem : location ∈ cleared _ old) =>
    inside_of_mem_cleared mem
  refine (directory.child isRunId.isPlainName (apart [])).child plain ?_
  rw [placeOf_child state isRunId.isPlainName, List.append_assoc]
  exact apart [change.backup]

/-- In a tidy directory cleaning takes the old runs and nothing else.  Everything about
histories is in the hypothesis, so this is a statement about a single cleaning. -/
theorem Tidy.exists_takesOldOnly (h : Tidy state runs fs) (room : HasRoom state)
    {order : List Run → List Run} (same : ∀ runs, (order runs).Perm runs) {keepDays : Nat}
    {now : Timestamp} (date : now.minusDays? keepDays = some cutoff) :
    ∃ after, TakesOldOnly (cleanRunsIn order keepDays now state) state cutoff (.ofRuns runs) fs
      after := by
  obtain ⟨after, done, keeps, gone, tidy⟩ := h.exists_forgetOld room (same runs) (·.time.before cutoff)
  have older : (RunIndex.ofRuns runs).olderThan cutoff = runs.filter (·.time.before cutoff) := by
    rw [RunIndex.olderThan, RunIndex.values_ofRuns]
  have rest := (same runs).filter fun run => !run.time.before cutoff
  refine ⟨after, ?_, older ▸ gone, older ▸ keeps, listsTheRest_of_inStep h.toKeptInStep
    tidy.toKeptInStep rest, ?_⟩
  · rw [on_cleanRunsIn h.load_index, RunIndex.values_ofRuns, date, older]
    exact done
  · rintro entry mem young apart force console
    rw [older] at apart ⊢
    obtain ⟨run, hrun, rfl⟩ := List.mem_map.mp mem
    have kept : run ∈ (order runs).filter fun run => !run.time.before cutoff :=
      rest.mem_iff.mpr (List.mem_filter.mpr ⟨hrun, by simpa using young⟩)
    exact h.alike_revertRun tidy room keeps (Set.mem_insert _ _) rest kept apart force console

/-- **Cleaning takes the old runs and nothing else**, in every state directory that comes from an empty one
by keeping backups, recording runs, undoing them, forgetting old ones and changing other things, and in
whatever order the runs of the index are gone through. -/
theorem clean_takes_old_runs_only (state : Path) (room : HasRoom state) (start : FileSystem)
    (empty : IsEmptyDirectory state start) (now : List String × FileSystem)
    (steps : Relation.ReflTransGen (StoreStep state) ([], start) now) (keepDays : Nat)
    (today cutoff : Timestamp) (date : today.minusDays? keepDays = some cutoff) :
    ∃ index, RunIndex.load state now.2 = .ok index ∧
      (∃ after, TakesOldOnly (cleanRuns keepDays today state) state cutoff index now.2 after) ∧
      ∀ order : List Run → List Run, (∀ runs, (order runs).Perm runs) →
        ∃ after, TakesOldOnly (cleanRunsIn order keepDays today state) state cutoff index now.2 after := by
  obtain ⟨runs, tidy, -⟩ := Tidy.of_steps steps room empty.tidy (by simp)
  refine ⟨.ofRuns runs, tidy.load_index, ?_, fun order same => tidy.exists_takesOldOnly room same date⟩
  rw [cleanRuns]
  exact tidy.exists_takesOldOnly room (fun runs => List.Perm.refl runs) date

/-! ## Specimens -/

namespace Specimen

/-- A state directory with a file in the directory of a run. -/
def sharedFiles : FileSystem where
  workingDirectory := []
  entries := [(["s"], .directory), (["s", "0a1b2c3"], .directory),
    (["s", "0a1b2c3", "a.ts"], .file (.text "new") true), (["beside.json"], .file (.text "X") true)]

/-- The directory is there. -/
theorem isReady_sharedFiles : IsReady records sharedFiles := ⟨⟨rfl, rfl⟩, .inr (by decide)⟩

/-- These files come about without the records being touched. -/
theorem keeps_sharedFiles : Keeps (recordPlaces ["s"])ᶜ (besideFiles "X") sharedFiles where
  workingDirectory_eq := rfl
  entryAt?_eq location untouched := by
    have isRunId : IsRunId "0a1b2c3" := by decide
    obtain ⟨name, rfl | rfl⟩ := Set.notMem_compl_iff.mp untouched
    · have other : (name ++ ".json" == "0a1b2c3") = false := by simpa using isRunId.ne_json name
      simp [entryAt?, sharedFiles, besideFiles, List.lookup_cons, other]
    · have other : (name ++ ".json" ++ ".tmp" == "0a1b2c3") = false := by
        simpa using isRunId.ne_tmp (name ++ ".json")
      simp [entryAt?, sharedFiles, besideFiles, List.lookup_cons, other]

/-- No file is where a run would have its directory. -/
theorem fileAt?_sharedFiles (id : String) : sharedFiles.fileAt? ["s", id] = none := by
  by_cases same : id = "0a1b2c3"
  · subst same
    rfl
  · have other : (id == "0a1b2c3") = false := by simpa using same
    simp [fileAt?, entryAt?, sharedFiles, List.lookup_cons, other]

/-- So it is tidy, although a directory of a run has a file in it that is none of its
backups. -/
theorem tidy_sharedFiles : Tidy records [] sharedFiles :=
  (isEmptyDirectory_besideFiles "X").tidy.of_keeps keeps_sharedFiles isReady_sharedFiles
    (fun _ record apart => apart record) fun id _ => fileAt?_sharedFiles id

/-- A run from a month later than another one, with one change. -/
def laterRun (change : FileChange) : Run :=
  { emptyRun "1b2c3d4" with
    time := { seconds := 30 * 86400, nanos := 0 }
    changes := [change] }

@[simp] theorem id_laterRun (change : FileChange) : (laterRun change).id = "1b2c3d4" := rfl

/-- A day between the two. -/
def dayBetween : Timestamp := { seconds := 20 * 86400, nanos := 0 }

/-- A day after both. -/
def dayAfter : Timestamp := { seconds := 40 * 86400, nanos := 0 }

/-- Twenty days before the later day lies the day between. -/
theorem dayAfter_minusDays : dayAfter.minusDays? 20 = some dayBetween := by decide

variable {change : FileChange}

/-- The later run can be stored. -/
theorem isStorable_laterRun (small : change.fixesApplied = 0) :
    (laterRun change).isStorable = true := by
  have writable : Timestamp.isWritable { seconds := 30 * 86400, nanos := 0 } = true := by decide
  rw [Run.isStorable, Bool.and_eq_true, List.all_eq_true]
  exact ⟨writable, by simp [laterRun, small]⟩

/-- **Both runs are recorded**, if the source of the later one is in no place of the program. -/
theorem exists_recorded (small : change.fixesApplied = 0)
    (source : sharedFiles.placeOf change.path ∉ recordPlaces ["s"] ∪ runPlaces ["s"]) :
    ∃ fs, Relation.ReflTransGen (StoreStep records) ([], besideFiles "X")
        (["1b2c3d4", "0a1b2c3"], fs) ∧
      Tidy records [emptyRun "0a1b2c3", laterRun change] fs ∧
      Keeps (recordPlaces ["s"]) sharedFiles fs := by
  have room : HasRoom records := rfl
  have isRunId : IsRunId (emptyRun "0a1b2c3").id := by decide
  have isRunId' : IsRunId (laterRun change).id := by
    show IsRunId "1b2c3d4"
    decide
  have storable := isStorable_emptyRun "0a1b2c3"
  have storable' := isStorable_laterRun small
  have edited : StoreStep records ([], besideFiles "X") ([], sharedFiles) :=
    .elsewhere isReady_sharedFiles keeps_sharedFiles fun id _ => fileAt?_sharedFiles id
  have first : StoreStep records ([], sharedFiles) (["0a1b2c3"], _) :=
    .record (emptyRun "0a1b2c3") isRunId List.not_mem_nil storable rfl rfl (by simp [emptyRun])
  have tidy := tidy_sharedFiles.of_saved_new room isRunId storable (by simp [emptyRun])
    (by simp [emptyRun]) List.not_mem_nil
  have keeps := (Keeps.of_changes (Run.save_changes isReady_sharedFiles (emptyRun "0a1b2c3") isRunId)).mono
    (Set.union_subset (recordSlots_subset_recordPlaces _ _) (Set.empty_subset _))
  generalize (((emptyRun "0a1b2c3").save records).on sharedFiles).2 = once at first tidy keeps
  have source' : ∀ other ∈ (laterRun change).changes, once.placeOf other.path ∉
      recordPlaces (once.placeOf records) ∪ runPlaces (once.placeOf records) := by
    intro other mem
    obtain rfl := List.mem_singleton.mp mem
    rw [keeps.placeOf, keeps.placeOf]
    exact source
  have second : StoreStep records (["0a1b2c3"], once) (["1b2c3d4", "0a1b2c3"], _) :=
    .record (laterRun change) isRunId' (by simp [laterRun, emptyRun]) storable' rfl rfl source'
  have tidy' := tidy.of_saved_new room isRunId' storable' (by simp [laterRun, emptyRun]) source'
    (by simp [laterRun, emptyRun])
  have keeps' := (Keeps.of_changes (Run.save_changes tidy.ready (laterRun change) isRunId')).mono
    (Set.union_subset (recordSlots_subset_recordPlaces _ _) (Set.empty_subset _))
  rw [keeps.placeOf] at keeps'
  exact ⟨_, ((Relation.ReflTransGen.single edited).tail first).tail second, tidy', keeps.trans keeps'⟩

/-! ### A run with a source outside -/

/-- A change of a source outside the state directory. -/
def outsideChange : FileChange where
  path := { text := "/b.ts" }
  hashBefore := ""
  hashAfter := ""
  backup := "b.ts"
  fixesApplied := 0

/-- The source is at no place of the program. -/
theorem not_mem_places_outside :
    sharedFiles.placeOf outsideChange.path ∉ recordPlaces ["s"] ∪ runPlaces ["s"] := by
  show (["b.ts"] : Location) ∉ recordPlaces ["s"] ∪ runPlaces ["s"]
  rintro (⟨name, same | same⟩ | ⟨id, -, same⟩)
  · simp at same
  · simp at same
  · simp at same

/-- It has nothing to do with what any cleaning removes. -/
theorem avoids_outside (fs : FileSystem) (old : List Run) :
    fs.Avoids (cleared ["s"] old) outsideChange.path := by
  have names : pathNames outsideChange.path = ["b.ts"] := rfl
  have origin : fs.origin outsideChange.path = [] := rfl
  refine avoids_of_prefixes names origin fun front way there => ?_
  have below := (inside_of_mem_cleared there).1
  simp only [List.prefix_cons_iff, List.prefix_nil] at way
  obtain rfl | ⟨_, rfl, rfl⟩ := way <;> simp [walk] at below

/-! ### A run with a source in the directory of another one -/

/-- A source in the directory of another run. -/
def sharedPath : Path := { text := "/s/0a1b2c3/a.ts" }

/-- A file outside the state directory. -/
def besidePath : Path := { text := "/beside.json" }

/-- A change of that source, with its backup outside.  The digest is left open, so that it is not
computed. -/
def sharedChange (digest : String) : FileChange where
  path := sharedPath
  hashBefore := ""
  hashAfter := digest
  backup := "/beside.json"
  fixesApplied := 0

/-- Its source is in the directory of a run but is not that directory, so nothing
forbids to record it. -/
theorem not_mem_places_shared (digest : String) :
    sharedFiles.placeOf (sharedChange digest).path ∉ recordPlaces ["s"] ∪ runPlaces ["s"] := by
  have place : sharedFiles.placeOf sharedPath = ["s", "0a1b2c3", "a.ts"] := rfl
  show sharedFiles.placeOf sharedPath ∉ _
  rw [place]
  rintro (⟨name, same | same⟩ | ⟨id, -, same⟩)
  · simp at same
  · simp at same
  · simp at same

/-- Its backup is the file beside the state directory. -/
theorem backupFile_shared (digest : String) :
    (sharedChange digest).backupFile "1b2c3d4" records = besidePath := by
  have joined : (records.child "1b2c3d4").child "/beside.json" = besidePath := rfl
  exact joined

/-- No record is on the way to the source. -/
theorem avoids_sharedPath : sharedFiles.Avoids (recordPlaces ["s"]) sharedPath := by
  have isRunId : IsRunId "0a1b2c3" := by decide
  have names : pathNames sharedPath = ["s", "0a1b2c3", "a.ts"] := rfl
  have origin : sharedFiles.origin sharedPath = [] := rfl
  refine avoids_of_prefixes names origin fun front way record => ?_
  simp only [List.prefix_cons_iff, List.prefix_nil] at way
  obtain ⟨name, named | named⟩ := record <;>
    obtain rfl | ⟨_, rfl, rfl | ⟨_, rfl, rfl | ⟨_, rfl, rfl⟩⟩⟩ := way <;> simp [walk] at named
  · exact isRunId.ne_json name named.symm
  · exact isRunId.ne_tmp (name ++ ".json") named.symm

/-- No record is on the way to the backup. -/
theorem avoids_besidePath : sharedFiles.Avoids (recordPlaces ["s"]) besidePath := by
  have names : pathNames besidePath = ["beside.json"] := rfl
  have origin : sharedFiles.origin besidePath = [] := rfl
  refine avoids_of_prefixes names origin fun front way record => ?_
  simp only [List.prefix_cons_iff, List.prefix_nil] at way
  obtain ⟨name, named | named⟩ := record <;> obtain rfl | ⟨_, rfl, rfl⟩ := way <;>
    simp [walk] at named

/-- So the run has nothing to do with the records. -/
theorem avoids_shared (digest : String) :
    (laterRun (sharedChange digest)).Avoids records (recordPlaces ["s"]) sharedFiles := by
  intro change mem
  obtain rfl := List.mem_singleton.mp mem
  refine ⟨avoids_sharedPath, ?_⟩
  show sharedFiles.Avoids _ ((sharedChange digest).backupFile "1b2c3d4" records)
  rw [backupFile_shared]
  exact avoids_besidePath

/-- Before cleaning the run can be undone. -/
theorem checkRevertible_shared {digest : String} {fs : FileSystem}
    (known : contentDigest (.text "new") = digest) (keeps : Keeps (recordPlaces ["s"]) sharedFiles fs) :
    checkRevertible (laterRun (sharedChange digest)) "1b2c3d4" false fs = .ok () := by
  have digested : fileDigest sharedPath sharedFiles = .ok digest := by
    rw [← known]
    rfl
  have there : sharedFiles.exists? sharedPath = true := rfl
  have asLeft : (sharedChange digest).IsAsLeft sharedFiles := ⟨there, digested⟩
  refine (checkRevertible_eq keeps (avoids_shared digest) false).trans ?_
  refine checkRevertible_eq_ok_iff.mpr ⟨rfl, rfl, fun _ change mem => ?_⟩
  rw [List.mem_singleton.mp mem]
  exact asLeft

/-- Its content can be brought back while the source is there. -/
theorem exists_restoreAll_shared (digest : String) {fs : FileSystem}
    (keeps : Keeps (recordPlaces ["s"]) sharedFiles fs) :
    ∃ middle, (restoreAll "1b2c3d4" records [sharedChange digest]).on fs = (.ok (), middle) := by
  have read : fs.readText besidePath = .ok "X" := (keeps.readText_eq avoids_besidePath).trans rfl
  have written : ∃ after, fs.write sharedPath (.text "X") = .ok after := by
    have done : ∃ after, sharedFiles.write sharedPath (.text "X") = .ok after := ⟨_, rfl⟩
    rcases keeps.write_alike avoids_sharedPath (.text "X") with ⟨reason, failed, -⟩ |
      ⟨_, after, -, done, -⟩
    · simp [failed] at done
    · exact ⟨after, done⟩
  rw [← backupFile_shared digest] at read
  obtain ⟨middle, restored, -⟩ := exists_restoreBackup_of_some
    (FileChange.restoredText?_eq_some_iff.mpr ⟨read, written⟩)
  refine ⟨middle, ?_⟩
  rw [on_restoreAll_cons, restored]
  rfl

/-- So the run can be undone before cleaning. -/
theorem exists_revertRun_shared {digest : String} {fs : FileSystem}
    (known : contentDigest (.text "new") = digest)
    (tidy : Tidy records [emptyRun "0a1b2c3", laterRun (sharedChange digest)] fs)
    (keeps : Keeps (recordPlaces ["s"]) sharedFiles fs) :
    ∃ after, (revertRun "1b2c3d4" false records).on fs = (.ok (), after) := by
  have mem : laterRun (sharedChange digest) ∈
      [emptyRun "0a1b2c3", laterRun (sharedChange digest)] := by simp
  have loaded := tidy.load mem
  rw [id_laterRun] at loaded
  obtain ⟨middle, restored⟩ := exists_restoreAll_shared digest keeps
  have still : Tidy records _ ((restoreAll "1b2c3d4" records [sharedChange digest]).on fs).2 :=
    tidy.of_restoreAll mem "1b2c3d4"
  rw [restored] at still
  obtain ⟨after, saved, -⟩ := still.exists_save_undone rfl mem
  have restored : (restoreAll "1b2c3d4" records (laterRun (sharedChange digest)).changes).on fs =
      (.ok (), middle) := restored
  refine ⟨after, ?_⟩
  rw [on_revertRun_of_restored loaded (checkRevertible_shared known keeps) restored, saved]

/-- Without its source the run cannot be undone. -/
theorem on_revertRun_sourceless {digest : String} {runs : List Run} {fs : FileSystem}
    (tidy : Tidy records runs fs) (mem : laterRun (sharedChange digest) ∈ runs)
    (gone : fs.entryAt? ["s", "0a1b2c3"] = none) :
    (revertRun "1b2c3d4" false records).on fs = (.error (.fileMissing sharedPath), fs) := by
  have missing : fs.exists? sharedPath = false := by
    rw [Bool.eq_false_iff]
    intro there
    obtain ⟨location, entry, found⟩ := exists?_eq_true_iff.mp there
    obtain ⟨-, follows⟩ := locate_eq_ok_iff_follow.mp (locate_of_stat found)
    have names : pathNames sharedPath = ["s", "0a1b2c3"] ++ "a.ts" :: [] := rfl
    rw [names] at follows
    have directory := entryAt?_of_follow follows
    have place : walk (fs.origin sharedPath) ["s", "0a1b2c3"] = ["s", "0a1b2c3"] := rfl
    rw [place, gone] at directory
    contradiction
  have loaded := tidy.load mem
  rw [id_laterRun] at loaded
  have first : checkUnchanged "1b2c3d4" fs (sharedChange digest) = .error (.fileMissing sharedPath) := by
    rw [checkUnchanged]
    show (if !fs.exists? sharedPath then _ else _) = _
    rw [missing]
    rfl
  have refused : checkRevertible (laterRun (sharedChange digest)) "1b2c3d4" false fs =
      .error (.fileMissing sharedPath) := by
    show checkAllUnchanged "1b2c3d4" fs [sharedChange digest] = _
    rw [checkAllUnchanged, first]
    rfl
  rw [on_revertRun, loaded]
  simp only [refused]

end Specimen

open Specimen

/-- One of two runs is old.  Cleaning takes it, and the other one can be undone as before. -/
theorem clean_takes_old_runs_only_specimen :
    ∃ fs after, Relation.ReflTransGen (StoreStep records) ([], besideFiles "X")
        (["1b2c3d4", "0a1b2c3"], fs) ∧
      RunIndex.load records fs = .ok (.ofRuns [emptyRun "0a1b2c3", laterRun outsideChange]) ∧
      (cleanRuns 20 dayAfter records).on fs = (.ok 1, after) ∧
      after.entryAt? ["s", "0a1b2c3"] = none ∧
      ∀ force console, Task.Alike
        (World.Like (DifferAsCleared records dayBetween (cleared ["s"] [emptyRun "0a1b2c3"])))
        (revertRun "1b2c3d4" force records { files := fs, console })
        (revertRun "1b2c3d4" force records { files := after, console }) := by
  obtain ⟨fs, steps, tidy, -⟩ := exists_recorded rfl not_mem_places_outside
  obtain ⟨index, loaded, ⟨after, takes⟩, -⟩ := clean_takes_old_runs_only records rfl _
    (isEmptyDirectory_besideFiles "X") _ steps 20 dayAfter dayBetween dayAfter_minusDays
  rw [tidy.load_index] at loaded
  obtain rfl := Except.ok.inj loaded
  have place : fs.placeOf records = ["s"] := rfl
  have older : (RunIndex.ofRuns [emptyRun "0a1b2c3", laterRun outsideChange]).olderThan dayBetween =
      [emptyRun "0a1b2c3"] := by
    rw [RunIndex.olderThan, RunIndex.values_ofRuns]
    rfl
  have listed : ((laterRun outsideChange).id, laterRun outsideChange) ∈
      (RunIndex.ofRuns [emptyRun "0a1b2c3", laterRun outsideChange]).runs :=
    List.mem_map.mpr ⟨laterRun outsideChange, by simp, rfl⟩
  have apart : (laterRun outsideChange).Avoids records (cleared ["s"] [emptyRun "0a1b2c3"]) fs := by
    have isRunId : IsRunId (laterRun outsideChange).id := by
      rw [id_laterRun]
      decide
    have plain : IsPlainName outsideChange.backup := isPlainName_of_length (by decide) (by decide)
    have kept : (laterRun outsideChange).id ∉ [emptyRun "0a1b2c3"].map (·.id) := by simp [emptyRun]
    intro change mem
    rw [List.mem_singleton.mp mem]
    exact ⟨avoids_outside fs _, place ▸ tidy.avoids_backupFile isRunId kept plain⟩
  have done := takes.done
  have gone := takes.gone.directory
  have undone := takes.undone _ listed rfl
  rw [older, place] at gone undone
  rw [older] at done
  exact ⟨fs, after, steps, tidy.load_index, done, gone _ List.mem_cons_self, undone apart⟩

/-- **A run that loses its source.**  A run with a source in the directory of an older one can be undone.
Cleaning takes the older run and keeps this one; then it cannot be undone any more. -/
theorem kept_run_loses_source :
    ∃ digest fs after reverted, Relation.ReflTransGen (StoreStep records) ([], besideFiles "X")
        (["1b2c3d4", "0a1b2c3"], fs) ∧
      (cleanRuns 20 dayAfter records).on fs = (.ok 1, after) ∧
      RunIndex.load records after = .ok (.ofRuns [laterRun (sharedChange digest)]) ∧
      (revertRun "1b2c3d4" false records).on fs = (.ok (), reverted) ∧
      (revertRun "1b2c3d4" false records).on after =
        (.error (.fileMissing sharedPath), after) := by
  obtain ⟨digest, known⟩ : ∃ digest, contentDigest (.text "new") = digest := ⟨_, rfl⟩
  obtain ⟨fs, steps, tidy, keeps⟩ := exists_recorded rfl (not_mem_places_shared digest)
  obtain ⟨reverted, undone⟩ := exists_revertRun_shared known tidy keeps
  obtain ⟨after, done, -, gone, tidy'⟩ := tidy.exists_forgetOld rfl (List.Perm.refl _)
    (·.time.before dayBetween)
  have old : [emptyRun "0a1b2c3", laterRun (sharedChange digest)].filter (·.time.before dayBetween) =
      [emptyRun "0a1b2c3"] := rfl
  have kept : ([emptyRun "0a1b2c3", laterRun (sharedChange digest)].filter fun run =>
      !run.time.before dayBetween) = [laterRun (sharedChange digest)] := rfl
  rw [old] at done gone
  rw [kept] at done tidy'
  have cleaned : (cleanRuns 20 dayAfter records).on fs = (.ok 1, after) := by
    rw [cleanRuns, on_cleanRunsIn tidy.load_index, RunIndex.values_ofRuns, dayAfter_minusDays]
    exact done
  exact ⟨digest, fs, after, reverted, steps, cleaned, tidy'.load_index, undone,
    on_revertRun_sourceless tidy' List.mem_cons_self (gone.directory _ List.mem_cons_self)⟩

end AliasHoist
