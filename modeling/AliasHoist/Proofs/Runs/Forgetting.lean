import AliasHoist.Proofs.Runs.Filing
import AliasHoist.Runs.Clean

/-!
# Forgetting runs

A run is forgotten with its backups and its file, and after that the index is written without it.  In
between the index still lists it, so what is kept all the way is that the runs that are left are in
their files.

## Main Definitions

* `outsideBackups`: the locations that are in the directory of none of some runs.

## Main Statements

* `Filed.of_forgetRuns`: runs that have been forgotten are gone, and the others are in their files, with
  their backups;
* `Filed.of_saveIndex`: writing the index brings runs that are in their files into step;
* `KeptInStep.of_cleanRuns`: runs stay in step when old ones are forgotten.
-/

namespace AliasHoist

open FileSystem

variable {fs after : FileSystem} {state : Path} {id : String} {run : Run} {runs : List Run}
  {touched : Set Location}

/-! ## Backups of the runs that are left -/

/-- **The locations that are in the directory of none of some runs.**  What an operation
does to these is nothing to the backups of the runs, so "the others keep their backups"
is said everywhere in this one form, as a frame. -/
def outsideBackups (place : Location) (runs : List Run) : Set Location :=
  {location | ∀ run ∈ runs, ¬ place ++ [run.id] <+: location}

/-- The fewer runs there are to protect, the more locations may be touched.  Only
identifiers matter, so a run that has been marked as undone is protected like the one
before. -/
theorem outsideBackups_of_ids {place : Location} {some : List Run}
    (h : some.map (·.id) ⊆ runs.map (·.id)) :
    outsideBackups place runs ⊆ outsideBackups place some := by
  intro location outside run mem
  obtain ⟨same, hsame, id⟩ := List.mem_map.mp (h (List.mem_map_of_mem mem))
  rw [← id]
  exact outside same hsame

/-- What is in the directory of a run is in no other directory.  This is how another
run's directory, or a new one, is seen to be out of the way. -/
theorem mem_outsideBackups_of_ne {place : Location} {name : String} (rest : List String)
    (h : ∀ run ∈ runs, run.id ≠ name) : place ++ name :: rest ∈ outsideBackups place runs := by
  rintro run mem below
  exact h run mem (by simpa [List.prefix_append_right_inj] using below)

/-- The directory of a run is protected with everything in it, however deep. -/
theorem not_mem_outsideBackups {place : Location} (mem : run ∈ runs) (rest : List String) :
    place ++ run.id :: rest ∉ outsideBackups place runs :=
  fun outside => outside run mem ⟨rest, by simp⟩

/-- The name of a run is no name of a record.  A dot is no hexadecimal digit, which is
all that keeps the directories of runs and the records apart in one directory. -/
theorem IsRunId.ne_json (h : IsRunId id) (name : String) : name ++ ".json" ≠ id := by
  rintro rfl
  have digit := h.digits 'j' (by simp)
  revert digit
  decide

/-- Nor is it the name of a file through which a record is written. -/
theorem IsRunId.ne_tmp (h : IsRunId id) (name : String) : name ++ ".tmp" ≠ id := by
  rintro rfl
  have digit := h.digits 't' (by simp)
  revert digit
  decide

/-- Records are in the directory of no run.  Hence writing a record, through the file
beside it or over it, costs no backup. -/
theorem slot_subset_outsideBackups {place : Location} (ids : ∀ run ∈ runs, IsRunId run.id)
    (name : String) : slot place (name ++ ".json") ⊆ outsideBackups place runs := by
  rintro location (rfl | rfl)
  · exact mem_outsideBackups_of_ne [] fun run mem => ((ids run mem).ne_json name).symm
  · exact mem_outsideBackups_of_ne [] fun run mem => ((ids run mem).ne_tmp _).symm

/-- The same for recording a run, which writes its own file and the index. -/
theorem recordSlots_subset_outsideBackups {place : Location} (ids : ∀ run ∈ runs, IsRunId run.id)
    (id : String) : recordSlots place id ⊆ outsideBackups place runs :=
  Set.union_subset (slot_subset_outsideBackups ids id) (slot_subset_outsideBackups ids "runs")

/-! ## Forgetting one run -/

/-- What removing the backups of a run does, as one equation.  The outcome and the files
are given apart, since a directory that can only be removed in part leaves the rest
changed. -/
theorem on_removeBackups (id : String) (state : Path) (fs : FileSystem) :
    (removeBackups id state).on fs =
      if fs.exists? (state.child id) = true then
        ((fs.removeDirectory (state.child id)).2.mapError .files,
          (fs.removeDirectory (state.child id)).1)
      else (.ok (), fs) := by
  rw [removeBackups, Task.on_files_bind]
  split
  · exact Task.on_changePartly fs _ _
  · rfl

/-- What removing the file of a run does.  Unlike a directory, a file is removed
entirely or not at all. -/
theorem on_removeRecord (id : String) (state : Path) (fs : FileSystem) :
    (removeRecord id state).on fs =
      if fs.exists? (runFile id state) = true then
        match fs.removeFile (runFile id state) with
        | .ok after => (.ok (), after)
        | .error reason => (.error (.files reason), fs)
      else (.ok (), fs) := by
  rw [removeRecord, Task.on_files_bind]
  split
  · exact Task.on_change fs _ _
  · rfl

/-- Removing the file of a run does not depend on what has been said before. -/
@[simp] theorem isDeaf_removeRecord (id : String) (state : Path) :
    (removeRecord id state).IsDeaf := by
  refine Task.isDeaf_files.bind fun fs => ?_
  split
  · exact Task.isDeaf_change _ _
  · exact .pure _

/-- Neither does forgetting it, so the files are all there is to reason about below. -/
@[simp] theorem isDeaf_forgetRun (id : String) (state : Path) : (forgetRun id state).IsDeaf := by
  rw [forgetRun]
  refine Task.IsDeaf.bind (Task.isDeaf_files.bind fun fs => ?_) fun _ => isDeaf_removeRecord id state
  split
  · exact Task.isDeaf_changePartly _ _
  · exact .pure _

section

variable (ready : IsReady state fs) (direct : fs.IsDirect state)
include ready direct

/-- The state directory is still there when only what is in it has changed.  Deleting
inside a directory does not delete it: the hypothesis asks for at least one more name in
every location that is touched. -/
theorem IsReady.of_keeps (keeps : Keeps touched fs after)
    (inside : ∀ location ∈ touched, ∃ name rest,
      location = fs.placeOf state ++ (name :: rest)) : IsReady state after := by
  refine ⟨keeps.leads ready.leads direct fun location mem => ?_, ready.followable⟩
  obtain ⟨name, rest, rfl⟩ := inside location mem
  exact ⟨List.prefix_append _ _, by simp⟩

/-- **Removing the backups of a run** takes what is in its directory.  Success is
assumed here; `exists_removeBackups` says when there is success. -/
theorem removeBackups_keeps (plain : IsPlainName id)
    (h : (removeBackups id state).on fs = (.ok (), after)) :
    Keeps {location | fs.placeOf state ++ [id] <+: location} fs after ∧ IsReady state after := by
  have keeps : Keeps {location | fs.placeOf state ++ [id] <+: location} fs after := by
    rw [on_removeBackups] at h
    split at h
    · rcases hremove : fs.removeDirectory (state.child id) with ⟨left, _ | _⟩
      · simp [hremove, Except.mapError] at h
      · obtain ⟨-, rfl⟩ := Prod.mk.inj h
        rw [hremove]
        exact removeDirectory_keeps plain hremove
    · obtain ⟨-, rfl⟩ := Prod.mk.inj h
      exact .refl _
  refine ⟨keeps, ready.of_keeps direct keeps ?_⟩
  rintro location ⟨rest, rfl⟩
  exact ⟨id, rest, by simp⟩

/-- **Removing the file of a run.**  The last part tells the two ways of success apart:
either the file is gone, or its path led nowhere and nothing was done. -/
theorem removeRecord_keeps (isRunId : IsRunId id)
    (h : (removeRecord id state).on fs = (.ok (), after)) :
    Keeps {fs.placeOf state ++ [id ++ ".json"]} fs after ∧ IsReady state after ∧
      (after.entryAt? (fs.placeOf state ++ [id ++ ".json"]) = none ∨
        fs.exists? (runFile id state) = false ∧ after = fs) := by
  have place : fs.placeOf (runFile id state) = fs.placeOf state ++ [id ++ ".json"] :=
    placeOf_child state isRunId.isPlainName_file
  have keeps : Keeps {fs.placeOf state ++ [id ++ ".json"]} fs after ∧
      (after.entryAt? (fs.placeOf state ++ [id ++ ".json"]) = none ∨
        fs.exists? (runFile id state) = false ∧ after = fs) := by
    rw [on_removeRecord] at h
    split at h
    · cases hremove : fs.removeFile (runFile id state) with
      | error reason => simp [hremove] at h
      | ok left =>
          simp only [hremove] at h
          obtain ⟨-, rfl⟩ := Prod.mk.inj h
          obtain ⟨keeps, gone⟩ := removeFile_keeps hremove
          rw [place] at keeps gone
          exact ⟨keeps, .inl gone⟩
    · rename_i absent
      obtain ⟨-, rfl⟩ := Prod.mk.inj h
      exact ⟨.refl _, .inr ⟨by simpa using absent, rfl⟩⟩
  refine ⟨keeps.1, ready.of_keeps direct keeps.1 ?_, keeps.2⟩
  rintro location rfl
  exact ⟨_, [], rfl⟩

end

/-- **A run that has been forgotten is gone**, and the others are where they were.  The
run may be none of those that are filed; then nothing of theirs changes, and the filter
keeps them all. -/
theorem Filed.of_forgetRun (h : Filed state runs fs) (isRunId : IsRunId id)
    (forgotten : (forgetRun id state).on fs = (.ok (), after)) :
    Filed state (runs.filter (·.id ≠ id)) after := by
  rw [forgetRun, Task.on_bind_eq_ok_iff fun _ => isDeaf_removeRecord id state] at forgotten
  obtain ⟨_, middle, first, second⟩ := forgotten
  obtain ⟨keeps, ready⟩ := removeBackups_keeps h.ready h.direct isRunId.isPlainName first
  have still : Filed state runs middle := by
    refine h.of_keeps keeps ready fun name _ below => isRunId.ne_json name ?_
    simpa [List.prefix_append_right_inj, eq_comm] using below
  obtain ⟨keeps', ready', gone⟩ := removeRecord_keeps ready still.direct isRunId second
  have untouched {name : String} (ne : name ≠ id) :
      middle.placeOf state ++ [name ++ ".json"] ∉ ({middle.placeOf state ++ [id ++ ".json"]} :
        Set Location) := by
    intro same
    exact json_ne_json ne (by simpa using same)
  refine ⟨ready', still.direct.of_workingDirectory_eq keeps'.workingDirectory_eq,
    fun run mem => ?_, ?_, fun run mem => ?_, fun name ne fresh => ?_⟩
  · exact (still.keepable run (List.mem_of_mem_filter mem)).of_keeps keeps'
  · exact h.nodup.sublist (List.filter_sublist.map _)
  · obtain ⟨mem, ne⟩ := List.mem_filter.mp mem
    exact (still.records run mem).of_keeps keeps' (untouched (by simpa using ne))
  · rw [keeps'.placeOf]
    by_cases same : name = id
    · subst same
      rcases gone with gone | ⟨absent, rfl⟩
      · exact gone
      · refine still.others name ne fun known => ?_
        obtain ⟨run, mem, rfl⟩ := List.mem_map.mp known
        have there := (still.records run mem).exists? isRunId.isPlainName_file ready
        rw [← runFile, absent] at there
        contradiction
    · rw [keeps'.entryAt?_eq _ (untouched same)]
      refine still.others name ne fun known => fresh ?_
      obtain ⟨run, mem, rfl⟩ := List.mem_map.mp known
      exact List.mem_map.mpr ⟨run, List.mem_filter.mpr ⟨mem, by simpa using same⟩, rfl⟩

/-- **Forgetting a run leaves the backups of runs with other identifiers.**  It is
stated for any list of other runs, since the caller decides which runs are to be kept.
-/
theorem forgetRun_keeps {others : List Run} (ready : IsReady state fs) (direct : fs.IsDirect state)
    (isRunId : IsRunId id) (ids : ∀ run ∈ others, IsRunId run.id ∧ run.id ≠ id)
    (forgotten : (forgetRun id state).on fs = (.ok (), after)) :
    Keeps (outsideBackups (fs.placeOf state) others) fs after := by
  rw [forgetRun, Task.on_bind_eq_ok_iff fun _ => isDeaf_removeRecord id state] at forgotten
  obtain ⟨_, middle, first, second⟩ := forgotten
  obtain ⟨keeps, ready'⟩ := removeBackups_keeps ready direct isRunId.isPlainName first
  have direct' := direct.of_workingDirectory_eq keeps.workingDirectory_eq
  obtain ⟨keeps', -, -⟩ := removeRecord_keeps ready' direct' isRunId second
  rw [keeps.placeOf] at keeps'
  refine (keeps.mono ?_).trans (keeps'.mono ?_)
  · rintro location ⟨rest, rfl⟩
    rw [List.append_assoc, List.singleton_append]
    exact mem_outsideBackups_of_ne rest fun run mem => (ids run mem).2
  · rintro location rfl
    exact mem_outsideBackups_of_ne [] fun run mem => ((ids run mem).1.ne_json id).symm

/-- Forgetting runs one after the other does not depend on what has been said before. -/
@[simp] theorem isDeaf_forgetRuns (state : Path) (old : List Run) :
    (forgetRuns state old).IsDeaf := by
  induction old with
  | nil => exact .pure ()
  | cons run rest ih => exact (isDeaf_forgetRun _ _).bind fun _ => ih

/-- **Runs that have been forgotten are gone**, and the others are where they were.  It
is the step `Filed.of_forgetRun` carried along the list; the filters add up to one by
the identifiers of all the runs that went. -/
theorem Filed.of_forgetRuns {old : List Run} (h : Filed state runs fs)
    (ids : ∀ run ∈ old, IsRunId run.id)
    (forgotten : (forgetRuns state old).on fs = (.ok (), after)) :
    Filed state (runs.filter fun run => run.id ∉ old.map (·.id)) after := by
  induction old generalizing runs fs with
  | nil =>
      obtain ⟨-, rfl⟩ := Prod.mk.inj forgotten
      simpa using h
  | cons run rest ih =>
      rw [forgetRuns, Task.on_bind_eq_ok_iff fun _ => isDeaf_forgetRuns state rest] at forgotten
      obtain ⟨_, middle, first, others⟩ := forgotten
      have filed := h.of_forgetRun (ids run List.mem_cons_self) first
      have gone := ih filed (fun other mem => ids other (List.mem_cons_of_mem _ mem)) others
      rw [List.filter_filter] at gone
      convert gone using 2
      funext other
      rw [← Bool.decide_and, decide_eq_decide, List.map_cons, List.mem_cons, not_or, and_comm]

/-- **Forgetting runs leaves the backups of the others.**  The induction needs the runs
to be filed at each step, because only in a directory that leads where it should is a
run's directory found at its place. -/
theorem Filed.forgetRuns_keeps {old others : List Run} (h : Filed state runs fs)
    (ids : ∀ run ∈ old, IsRunId run.id)
    (apart : ∀ run ∈ others, IsRunId run.id ∧ run.id ∉ old.map (·.id))
    (forgotten : (forgetRuns state old).on fs = (.ok (), after)) :
    Keeps (outsideBackups (fs.placeOf state) others) fs after := by
  induction old generalizing runs fs with
  | nil =>
      obtain ⟨-, rfl⟩ := Prod.mk.inj forgotten
      exact .refl _
  | cons run rest ih =>
      rw [forgetRuns, Task.on_bind_eq_ok_iff fun _ => isDeaf_forgetRuns state rest] at forgotten
      obtain ⟨_, middle, first, later⟩ := forgotten
      have isRunId := ids run List.mem_cons_self
      have keeps : Keeps (outsideBackups (fs.placeOf state) others) fs middle := by
        refine forgetRun_keeps h.ready h.direct isRunId (fun other mem => ?_) first
        exact ⟨(apart other mem).1, fun same => (apart other mem).2 (by simp [same])⟩
      have further := ih (h.of_forgetRun isRunId first)
        (fun other mem => ids other (List.mem_cons_of_mem _ mem))
        (fun other mem => ⟨(apart other mem).1, fun known => (apart other mem).2 (by simp [known])⟩)
        later
      rw [keeps.placeOf] at further
      exact keeps.trans further

/-- Forgetting a run fails only at the files themselves, never because of what is in
them.  So a failure here counts as one in which the records could not be written. -/
theorem spoilsRecords_of_forgetRun {reason : RunError}
    (h : (forgetRun id state).on fs = (.error reason, after)) : reason.spoilsRecords = true := by
  rw [forgetRun, Task.on_bind _ fun _ => isDeaf_removeRecord id state, on_removeBackups] at h
  split at h
  · rename_i left middle first
    rw [on_removeRecord] at h
    split at h
    · cases hremove : middle.removeFile (runFile id state) with
      | ok found => simp [hremove] at h
      | error failure =>
          simp only [hremove, Prod.mk.injEq, Except.error.injEq] at h
          exact h.1 ▸ rfl
    · simp at h
  · rename_i failure middle first
    obtain ⟨rfl, -⟩ : failure = reason ∧ middle = after := by simpa using h
    split at first
    · cases hremove : (fs.removeDirectory (state.child id)).2 with
      | ok done => simp [hremove, Except.mapError] at first
      | error failure =>
          simp only [hremove, Except.mapError, Prod.mk.injEq, Except.error.injEq] at first
          exact first.1 ▸ rfl
    · simp at first

/-- The same for any number of runs. -/
theorem spoilsRecords_of_forgetRuns {old : List Run} {reason : RunError}
    (h : (forgetRuns state old).on fs = (.error reason, after)) : reason.spoilsRecords = true := by
  induction old generalizing fs with
  | nil => simp [forgetRuns] at h
  | cons run rest ih =>
      rw [forgetRuns, Task.on_bind _ fun _ => isDeaf_forgetRuns state rest] at h
      rcases hfirst : (forgetRun run.id state).on fs with ⟨_ | _, middle⟩
      · rw [hfirst] at h
        obtain ⟨rfl, -⟩ : _ = reason ∧ middle = after := by simpa using h
        exact spoilsRecords_of_forgetRun hfirst
      · rw [hfirst] at h
        exact ih h

/-- An index made of runs with different identifiers lists them in order.  The new index
is made by adding one run after the other, and adding replaces an entry with the same
identifier; the hypothesis says that this never happens. -/
theorem RunIndex.foldl_add (front kept : List Run) (nodup : ((front ++ kept).map (·.id)).Nodup) :
    kept.foldl RunIndex.add (.ofRuns front) = .ofRuns (front ++ kept) := by
  induction kept generalizing front with
  | nil => simp
  | cons run rest ih =>
      have fresh : run.id ∉ front.map (·.id) := by
        rw [List.map_append, List.map_cons, List.nodup_append] at nodup
        intro known
        exact nodup.2.2 _ known _ List.mem_cons_self rfl
      rw [List.foldl_cons, RunIndex.add_ofRuns_new fresh, ih _ (by simpa using nodup)]
      simp

/-- The runs of an index made of runs are these runs, in order. -/
@[simp] theorem RunIndex.values_ofRuns (runs : List Run) :
    (RunIndex.ofRuns runs).runs.map (·.2) = runs := by
  simp [RunIndex.ofRuns, Function.comp_def]

/-- With an index that can be read nothing is reset.  Cleaning then starts from the
index as it was, which is the case that matters for runs that are in step. -/
theorem RunIndex.on_loadOrReset {index : RunIndex} (loaded : RunIndex.load state fs = .ok index) :
    (RunIndex.loadOrReset state).on fs = (.ok index, fs) := by
  rw [RunIndex.loadOrReset, Task.on_files_bind, loaded]
  rfl

/-- Removing old runs and writing the index does not depend on what has been said
before. -/
theorem isDeaf_forgetOld (state : Path) (old kept : List Run) :
    (forgetOld state old kept).IsDeaf :=
  (isDeaf_forgetRuns _ _).bind fun _ => (RunIndex.isDeaf_save _ _).bind fun _ => .pure _

/-- **Forgetting the runs from before some days ago**, once there is an index, be it a
new one.  The cutoff is computed after the index has been read and before anything is
removed, so a cutoff out of the calendar leaves all runs. -/
theorem on_cleanRunsIn_of_loadOrReset {index : RunIndex}
    (loads : (RunIndex.loadOrReset state).on fs = (.ok index, after))
    (order : List Run → List Run) (keepDays : Nat) (now : Timestamp) :
    (cleanRunsIn order keepDays now state).on fs =
      match now.minusDays? keepDays with
      | none => (.error (.beyondCalendar keepDays), after)
      | some cutoff =>
          (forgetOld state ((order (index.runs.map (·.2))).filter (·.time.before cutoff))
            ((order (index.runs.map (·.2))).filter fun run => !run.time.before cutoff)).on after := by
  rw [cleanRunsIn, Task.on_bind_of_ok ?deaf loads]
  case deaf =>
    intro index
    dsimp only
    cases now.minusDays? keepDays with
    | none => exact .throw _
    | some cutoff => exact isDeaf_forgetOld _ _ _
  cases now.minusDays? keepDays with
  | none => rfl
  | some cutoff =>
      dsimp only
      rw [List.partition_eq_filter_filter]
      rfl

/-- **Forgetting the runs from before some days ago**, when the index can be read.
Nothing has been moved aside then, so the files are those from before. -/
theorem on_cleanRunsIn {index : RunIndex} (loaded : RunIndex.load state fs = .ok index)
    (order : List Run → List Run) (keepDays : Nat) (now : Timestamp) :
    (cleanRunsIn order keepDays now state).on fs =
      match now.minusDays? keepDays with
      | none => (.error (.beyondCalendar keepDays), fs)
      | some cutoff =>
          (forgetOld state ((order (index.runs.map (·.2))).filter (·.time.before cutoff))
            ((order (index.runs.map (·.2))).filter fun run => !run.time.before cutoff)).on fs :=
  on_cleanRunsIn_of_loadOrReset (RunIndex.on_loadOrReset loaded) order keepDays now

/-- Runs that are in their files are so in any order.  The index fixes an order of the
runs, the files do not. -/
theorem Filed.perm {order : List Run} (h : Filed state runs fs) (same : order.Perm runs) :
    Filed state order fs where
  ready := h.ready
  direct := h.direct
  keepable run mem := h.keepable run (same.mem_iff.mp mem)
  nodup := (same.map _).nodup_iff.mpr h.nodup
  records run mem := h.records run (same.mem_iff.mp mem)
  others name ne fresh := h.others name ne fun known => fresh ((same.map _).mem_iff.mpr known)

/-- The runs that are not forgotten are those with other identifiers.  Forgetting goes
by identifiers and cleaning by dates; as long as identifiers are unique the two select
the same runs. -/
theorem filter_not_forgotten (nodup : (runs.map (·.id)).Nodup) (isOld : Run → Bool) :
    (runs.filter fun run => run.id ∉ (runs.filter isOld).map (·.id)) =
      runs.filter fun run => !isOld run := by
  refine List.filter_congr fun run mem => ?_
  rw [Bool.eq_iff_iff, decide_eq_true_eq, Bool.not_eq_true', List.mem_map]
  constructor
  · intro apart
    by_contra old
    exact apart ⟨run, List.mem_filter.mpr ⟨mem, by simpa using old⟩, rfl⟩
  · rintro kept ⟨other, hother, same⟩
    obtain ⟨mem', old⟩ := List.mem_filter.mp hother
    obtain rfl := List.inj_on_of_nodup_map nodup mem' mem same
    rw [kept] at old
    contradiction

/-- Writing an index touches its file and the one beside it, whether it succeeds or not.
-/
theorem RunIndex.save_changes (ready : IsReady state fs) (index : RunIndex) :
    Changes (slot (fs.placeOf state) "runs.json") ∅ fs ((index.save state).on fs).2 := by
  rw [RunIndex.on_save ready]
  exact writeAtomically_changes _ _ _ isPlainName_index isPlainName_index_beside

/-- Writing the index of the runs that are in their files brings them into step.  This
is the second half of cleaning: the runs were in their files all along, and now the
index agrees with them again. -/
theorem Filed.of_saveIndex (h : Filed state runs fs) {outcome : Except RunError Unit}
    (saved : ((RunIndex.ofRuns runs).save state).on fs = (outcome, after))
    (writes : WritesRecords outcome) : KeptInStep state runs after := by
  have changes := RunIndex.save_changes h.ready (.ofRuns runs)
  rw [saved] at changes
  rw [RunIndex.on_save h.ready] at saved
  cases outcome with
  | error reason =>
      have spoilt := spoilsRecords_of_writeAtomically saved
      rw [writes reason rfl] at spoilt
      contradiction
  | ok done =>
      have stored : Stored state "runs.json" (RunIndex.ofRuns runs).toJson.pretty after :=
        stored_of_writeAtomically isPlainName_index isPlainName_index_beside saved
      refine ⟨h.of_keeps (Keeps.of_changes changes) (h.ready.of_changes changes) ?_,
        .inr (stored.holdsText isPlainName_index)⟩
      rintro name ne (there | there)
      · exact record_not_mem_slot ne there
      · exact there

/-- Writing the index leaves the backups.  The index may be any, so this needs nothing
of what cleaning has computed. -/
theorem Filed.saveIndex_keeps (h : Filed state runs fs) (index : RunIndex) :
    Keeps (outsideBackups (fs.placeOf state) runs) fs ((index.save state).on fs).2 := by
  refine (Keeps.of_changes (RunIndex.save_changes h.ready index)).mono ?_
  rw [Set.union_empty]
  exact slot_subset_outsideBackups (fun run mem => (h.keepable run mem).isRunId) "runs"

/-- **Runs are in step when some of them have been forgotten**, and the others keep
their backups.  Between the two halves the index lists runs that are gone, which is why
the proof goes through `Filed` and comes back to `KeptInStep` only with the new index.
-/
theorem Filed.of_forgetOld (h : Filed state runs fs) (isOld : Run → Bool)
    (writes : WritesRecords
      ((forgetOld state (runs.filter isOld) (runs.filter fun run => !isOld run)).on fs).1) :
    KeptInStep state (runs.filter fun run => !isOld run)
        ((forgetOld state (runs.filter isOld) (runs.filter fun run => !isOld run)).on fs).2 ∧
      Keeps (outsideBackups (fs.placeOf state) (runs.filter fun run => !isOld run)) fs
        ((forgetOld state (runs.filter isOld) (runs.filter fun run => !isOld run)).on fs).2 := by
  rw [forgetOld, Task.on_bind _ fun _ => (RunIndex.isDeaf_save _ _).bind fun _ => .pure _]
    at writes ⊢
  have ids : ∀ run ∈ runs.filter isOld, IsRunId run.id := fun run mem =>
    (h.keepable run (List.mem_of_mem_filter mem)).isRunId
  rcases hforget : (forgetRuns state (runs.filter isOld)).on fs with ⟨reason | done, middle⟩
  · have spoilt := spoilsRecords_of_forgetRuns hforget
    rw [writes reason (by rw [hforget])] at spoilt
    contradiction
  · have filed : Filed state (runs.filter fun run => !isOld run) middle := by
      rw [← filter_not_forgotten h.nodup]
      exact h.of_forgetRuns ids hforget
    have keeps : Keeps (outsideBackups (fs.placeOf state) (runs.filter fun run => !isOld run)) fs
        middle := by
      refine h.forgetRuns_keeps ids (fun run mem => ?_) hforget
      rw [← filter_not_forgotten h.nodup] at mem
      obtain ⟨old, apart⟩ := List.mem_filter.mp mem
      exact ⟨(h.keepable run old).isRunId, of_decide_eq_true apart⟩
    have index : (runs.filter fun run => !isOld run).foldl RunIndex.add .empty =
        .ofRuns (runs.filter fun run => !isOld run) :=
      RunIndex.foldl_add [] _ filed.nodup
    have further := filed.saveIndex_keeps (.ofRuns (runs.filter fun run => !isOld run))
    rw [keeps.placeOf] at further
    rw [hforget] at writes
    dsimp only at writes ⊢
    rw [Task.on_bind _ fun _ => .pure _, index] at writes ⊢
    rcases hsave : ((RunIndex.ofRuns (runs.filter fun run => !isOld run)).save state).on middle
      with ⟨reason | done, after⟩
    · rw [hsave] at writes further
      refine ⟨filed.of_saveIndex hsave fun failure same => ?_, keeps.trans further⟩
      obtain rfl := Except.error.inj same
      exact writes _ rfl
    · rw [hsave] at further
      exact ⟨filed.of_saveIndex hsave fun failure same => by contradiction, keeps.trans further⟩

/-- **Runs stay in step when old ones are forgotten**, as long as the records can be
written: some of the runs are left, in their order, and they keep their backups.  When
the calendar does not reach back far enough, all are left. -/
theorem KeptInStep.of_cleanRuns (h : KeptInStep state runs fs) {keepDays : Nat} {now : Timestamp}
    (writes : WritesRecords ((cleanRuns keepDays now state).on fs).1) :
    ∃ kept, KeptInStep state kept ((cleanRuns keepDays now state).on fs).2 ∧ kept.Sublist runs ∧
      Keeps (outsideBackups (fs.placeOf state) kept) fs
        ((cleanRuns keepDays now state).on fs).2 := by
  rw [cleanRuns, on_cleanRunsIn h.load_index, RunIndex.values_ofRuns] at writes ⊢
  cases hcutoff : now.minusDays? keepDays with
  | none => exact ⟨runs, h, List.Sublist.refl runs, .refl fs⟩
  | some cutoff =>
      simp only [hcutoff] at writes ⊢
      obtain ⟨inStep, keeps⟩ := h.toFiled.of_forgetOld _ writes
      exact ⟨_, inStep, List.filter_sublist, keeps⟩

end AliasHoist
