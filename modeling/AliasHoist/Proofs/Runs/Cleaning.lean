import AliasHoist.Proofs.Runs.Tidying

/-!
# Cleaning takes old runs only

In a tidy state directory old runs are always forgotten: of each of them its directory, its file and its
entry in the index go away, whatever the order in which the runs are gone through, and everything else
stays.

## Main Definitions

* `traces`: the file of a run, and everything in its directory;
* `cleared`: what cleaning may touch;
* `Gone`: some runs have no file and no directory any more.

## Main Statements

* `exists_forgetRun`, `exists_forgetRuns`: runs are forgotten where nothing is in the way;
* `Tidy.exists_forgetOld`: old runs are forgotten, and what is left is tidy.
-/

namespace AliasHoist

open FileSystem

variable {fs middle after : FileSystem} {state : Path} {name id : String} {run : Run}
  {runs runs' old order : List Run} {place : Location} {touched : Set Location}

/-! ## What there is of a run -/

/-- **What there is of some runs**: their files, and everything in their directories.
It is what cleaning is allowed to remove, so everything that is kept is kept because it
is outside. -/
def traces (place : Location) (runs : List Run) : Set Location :=
  {location | ∃ run ∈ runs, place ++ [run.id] <+: location ∨
    location = place ++ [run.id ++ ".json"]}

/-- Fewer runs leave fewer traces. -/
theorem traces_mono (h : old ⊆ runs) : traces place old ⊆ traces place runs := by
  rintro location ⟨run, mem, there⟩
  exact ⟨run, h mem, there⟩

/-- What is in the directory of another run is none of their traces.  Directories of
different names have nothing in common, and the file of a run is not in a directory. -/
theorem IsRunId.not_mem_traces (place : Location) (isRunId : IsRunId id)
    (other : id ∉ runs.map (·.id)) (rest : List String) : place ++ id :: rest ∉ traces place runs := by
  rintro ⟨run, mem, below | same⟩
  · obtain rfl : run.id = id := by
      simpa [List.prefix_append_right_inj] using below
    exact other (List.mem_map_of_mem mem)
  · obtain ⟨rfl, -⟩ : id = run.id ++ ".json" ∧ rest = [] := by simpa using same
    exact isRunId.ne_json run.id rfl

/-- The file of another run is none of their traces.  The hypothesis on identifiers is
there because the directory of a run could otherwise be called like a record. -/
theorem record_not_mem_traces (place : Location) (ids : ∀ run ∈ runs, IsRunId run.id)
    (other : name ∉ runs.map (·.id)) : place ++ [name ++ ".json"] ∉ traces place runs := by
  rintro ⟨run, mem, below | same⟩
  · exact (ids run mem).ne_json name
      (by simpa [List.prefix_append_right_inj, eq_comm] using below)
  · obtain rfl : name = run.id := by
      by_contra ne
      exact json_ne_json ne (by simpa using same)
    exact other (List.mem_map_of_mem mem)

/-- The files through which records are written are none of their traces.  Cleaning
therefore cannot trip over a record that is being written. -/
theorem beside_not_mem_traces (place : Location) (ids : ∀ run ∈ runs, IsRunId run.id) (name : String) :
    place ++ [name ++ ".tmp"] ∉ traces place runs := by
  rintro ⟨run, mem, below | same⟩
  · exact (ids run mem).ne_tmp name
      (by simpa [List.prefix_append_right_inj, eq_comm] using below)
  · exact json_ne_tmp run.id name (by simpa using same.symm)

/-- The index is none of their traces.  The index is rewritten by cleaning and not
removed, so it is accounted for apart, in `cleared`. -/
theorem index_not_mem_traces (place : Location) (ids : ∀ run ∈ runs, IsRunId run.id) :
    place ++ ["runs.json"] ∉ traces place runs := by
  have other : "runs" ∉ runs.map (·.id) := by
    intro known
    obtain ⟨run, mem, same⟩ := List.mem_map.mp known
    exact (ids run mem).ne_of_length (by decide) same.symm
  exact record_not_mem_traces place ids other

/-- **What cleaning may touch**: the index, and what there is of the old runs. -/
def cleared (place : Location) (old : List Run) : Set Location :=
  insert (place ++ ["runs.json"]) (traces place old)

/-- **Some runs are gone**: they have no directory and no file any more, and where there
was a directory nothing of it is left.  The second field is not a consequence of the
first in these file systems, where entries are by location and a file could be listed
without the directory around it. -/
structure Gone (place : Location) (old : List Run) (fs after : FileSystem) : Prop where
  directory : ∀ run ∈ old, after.entryAt? (place ++ [run.id]) = none
  inside : ∀ run ∈ old, fs.entryAt? (place ++ [run.id]) = some .directory →
    ∀ rest, after.entryAt? (place ++ run.id :: rest) = none
  file : ∀ run ∈ old, after.entryAt? (place ++ [run.id ++ ".json"]) = none

/-- Runs that are gone stay so while nothing of them is touched.  The hypotheses are the
two parts of `traces`, one for directories and one for files. -/
theorem Gone.of_keeps (h : Gone place old fs middle) (keeps : Keeps touched middle after)
    (inside : ∀ run ∈ old, ∀ rest, place ++ run.id :: rest ∉ touched)
    (file : ∀ run ∈ old, place ++ [run.id ++ ".json"] ∉ touched) : Gone place old fs after where
  directory run mem := by
    rw [keeps.entryAt?_eq _ (inside run mem [])]
    exact h.directory run mem
  inside run mem there rest := by
    rw [keeps.entryAt?_eq _ (inside run mem rest)]
    exact h.inside run mem there rest
  file run mem := by
    rw [keeps.entryAt?_eq _ (file run mem)]
    exact h.file run mem

/-- If some runs are gone, each of them is. -/
theorem Gone.mono {some : List Run} (h : Gone place old fs after) (sub : some ⊆ old) :
    Gone place some fs after where
  directory run mem := h.directory run (sub mem)
  inside run mem := h.inside run (sub mem)
  file run mem := h.file run (sub mem)

/-- Runs that are gone stay so when the index is written.  It carries what the removals
have achieved over the last step of cleaning. -/
theorem Gone.of_saveIndex (h : Gone place old fs middle)
    (keeps : Keeps {place ++ ["runs.json"]} middle after) (ids : ∀ run ∈ old, IsRunId run.id) :
    Gone place old fs after := by
  refine h.of_keeps keeps (fun run mem rest same => ?_) fun run mem same => ?_
  · obtain ⟨named, -⟩ : run.id = "runs" ++ ".json" ∧ rest = [] := by simpa using same
    exact (ids run mem).ne_json "runs" named.symm
  · have ne : "runs" ≠ run.id := (ids run mem).ne_of_length (by decide)
    exact json_ne_json ne (by simpa using same.symm)

/-- **One run goes before the others.**  Each of the two removals must leave alone what
the other has to remove, and identifiers that differ see to that; this is the step of
the induction in `exists_forgetRuns`. -/
theorem Gone.cons (first : Gone place [run] fs middle) (others : Gone place old middle after)
    (before : Keeps (traces place [run]) fs middle) (further : Keeps (traces place old) middle after)
    (ids : ∀ other ∈ run :: old, IsRunId other.id) (nodup : ((run :: old).map (·.id)).Nodup) :
    Gone place (run :: old) fs after := by
  obtain ⟨fresh, -⟩ := List.nodup_cons.mp nodup
  have ids' : ∀ other ∈ old, IsRunId other.id := fun other mem => ids other (List.mem_cons_of_mem _ mem)
  have still : Gone place [run] fs after := by
    refine first.of_keeps further (fun other mem rest => ?_) fun other mem => ?_
    · obtain rfl := List.mem_singleton.mp mem
      exact (ids other List.mem_cons_self).not_mem_traces place fresh rest
    · obtain rfl := List.mem_singleton.mp mem
      exact record_not_mem_traces place ids' fresh
  refine ⟨fun other mem => ?_, fun other mem there rest => ?_, fun other mem => ?_⟩
  · rcases List.mem_cons.mp mem with rfl | later
    · exact still.directory other List.mem_cons_self
    · exact others.directory other later
  · rcases List.mem_cons.mp mem with rfl | later
    · exact still.inside other List.mem_cons_self there rest
    · refine others.inside other later ?_ rest
      -- the directory was there before the first run went
      rw [before.entryAt?_eq _ ((ids' other later).not_mem_traces place ?_ [])]
      · exact there
      · intro same
        exact fresh (List.mem_map.mpr ⟨other, later, by simpa using same⟩)
  · rcases List.mem_cons.mp mem with rfl | later
    · exact still.file other List.mem_cons_self
    · exact others.file other later

/-! ## Forgetting runs -/

/-- Whether there is something under a plain name that has its location.  The location
has to be given, because a path that is too long names nothing whatever there is at its
place. -/
theorem exists?_child (plain : IsPlainName name)
    (located : fs.locate (state.child name) = .ok (fs.placeOf state ++ [name])) :
    fs.exists? (state.child name) = (fs.entryAt? (fs.placeOf state ++ [name])).isSome := by
  cases hentry : fs.entryAt? (fs.placeOf state ++ [name]) with
  | none => simp [FileSystem.exists?, stat, located, bind, Except.bind, hentry, Except.toOption]
  | some entry =>
      exact exists?_eq_true_iff.mpr ⟨_, _, stat_eq_ok_iff.mpr
        ⟨located, hentry, .inr (demandsDirectory_child state plain)⟩⟩

section

variable (room : HasRoom state) (ready : IsReady state fs) (isRunId : IsRunId id)
include room ready isRunId

/-- **The backups of a run can be removed**, if it is no file that is in their place.
Both without and with a directory there; in the latter case all that it holds goes with
it. -/
theorem exists_removeBackups (noFile : fs.fileAt? (fs.placeOf state ++ [id]) = none) :
    ∃ after, (removeBackups id state).on fs = (.ok (), after) ∧
      after.entryAt? (fs.placeOf state ++ [id]) = none ∧
      (fs.entryAt? (fs.placeOf state ++ [id]) = some .directory →
        ∀ rest, after.entryAt? (fs.placeOf state ++ id :: rest) = none) := by
  have located := room.locate ready isRunId.isPlainName isRunId.nul_not_mem
    (by rw [isRunId.utf8ByteSize_eq]; decide)
  rw [on_removeBackups, exists?_child isRunId.isPlainName located]
  cases hentry : fs.entryAt? (fs.placeOf state ++ [id]) with
  | none => exact ⟨fs, rfl, hentry, by simp⟩
  | some entry =>
      cases entry with
      | file content writable => simp [fileAt?, hentry] at noFile
      | directory =>
          have there := stat_eq_ok_iff.mpr ⟨located, hentry, .inl rfl⟩
          rw [removeDirectory_of_stat isRunId.isPlainName there]
          refine ⟨_, rfl, entryAt?_eraseBelow (List.prefix_refl _) (by simp), fun _ rest => ?_⟩
          exact entryAt?_eraseBelow ⟨rest, by simp⟩ (by simp)

/-- **The file of a run can be removed**, if it is no directory that is in its place.  A
run without a file is no failure, so a run can be forgotten after its file was deleted
by hand. -/
theorem exists_removeRecord
    (noDirectory : fs.entryAt? (fs.placeOf state ++ [id ++ ".json"]) ≠ some .directory) :
    ∃ after, (removeRecord id state).on fs = (.ok (), after) ∧
      after.entryAt? (fs.placeOf state ++ [id ++ ".json"]) = none := by
  have located := room.locate ready isRunId.isPlainName_file (by simpa using isRunId.nul_not_mem)
    (by rw [String.utf8ByteSize_append, isRunId.utf8ByteSize_eq]; decide)
  rw [on_removeRecord, runFile, exists?_child isRunId.isPlainName_file located]
  cases hentry : fs.entryAt? (fs.placeOf state ++ [id ++ ".json"]) with
  | none => exact ⟨fs, rfl, hentry⟩
  | some entry =>
      cases entry with
      | directory => exact absurd hentry noDirectory
      | file content writable =>
          have there := stat_eq_ok_iff.mpr
            ⟨located, hentry, .inr (demandsDirectory_child state isRunId.isPlainName_file)⟩
          have removed : fs.removeFile (state.child (id ++ ".json")) =
              .ok (fs.erase (fs.placeOf state ++ [id ++ ".json"])) := by
            rw [removeFile, there]
            rfl
          rw [removed]
          exact ⟨_, rfl, entryAt?_erase_self (by simp)⟩

end

/-- **A run can be forgotten** where nothing is in the way.  The two things that can be
in the way are a file where the directory should be and a directory where the file
should be; the program makes neither. -/
theorem exists_forgetRun (room : HasRoom state) (ready : IsReady state fs)
    (direct : fs.IsDirect state) (isRunId : IsRunId run.id)
    (noFile : fs.fileAt? (fs.placeOf state ++ [run.id]) = none)
    (noDirectory : fs.entryAt? (fs.placeOf state ++ [run.id ++ ".json"]) ≠ some .directory) :
    ∃ after, (forgetRun run.id state).on fs = (.ok (), after) ∧ IsReady state after ∧
      Keeps (traces (fs.placeOf state) [run]) fs after ∧ Gone (fs.placeOf state) [run] fs after := by
  obtain ⟨middle, first, directory, inside⟩ := exists_removeBackups room ready isRunId noFile
  obtain ⟨keeps, ready'⟩ := removeBackups_keeps ready direct isRunId.isPlainName first
  have direct' := direct.of_workingDirectory_eq keeps.workingDirectory_eq
  have record : middle.entryAt? (fs.placeOf state ++ [run.id ++ ".json"]) =
      fs.entryAt? (fs.placeOf state ++ [run.id ++ ".json"]) :=
    keeps.entryAt?_eq _ fun below => isRunId.ne_json run.id
      (by simpa [List.prefix_append_right_inj, eq_comm] using below)
  obtain ⟨after, second, file⟩ := exists_removeRecord room ready' isRunId
    (by rwa [keeps.placeOf, record])
  obtain ⟨keeps', ready'', -⟩ := removeRecord_keeps ready' direct' isRunId second
  rw [keeps.placeOf] at file keeps'
  have untouched (rest : List String) : fs.placeOf state ++ run.id :: rest ∉
      ({fs.placeOf state ++ [run.id ++ ".json"]} : Set Location) := by
    intro same
    obtain ⟨named, -⟩ : run.id = run.id ++ ".json" ∧ rest = [] := by
      simpa using same
    exact isRunId.ne_json run.id named.symm
  refine ⟨after, ?_, ready'', ?_, ?_⟩
  · rw [forgetRun, Task.on_bind_of_ok (fun _ => isDeaf_removeRecord _ _) first, second]
  · refine (keeps.mono fun location below => ?_).trans (keeps'.mono fun location same => ?_)
    · exact ⟨run, List.mem_cons_self, .inl below⟩
    · exact ⟨run, List.mem_cons_self, .inr same⟩
  · refine ⟨fun other mem => ?_, fun other mem there rest => ?_, fun other mem => ?_⟩ <;>
      obtain rfl := List.mem_singleton.mp mem
    · rw [keeps'.entryAt?_eq _ (untouched [])]
      exact directory
    · rw [keeps'.entryAt?_eq _ (untouched rest)]
      exact inside there rest
    · exact file

/-- **Runs can be forgotten** where nothing is in the way, one after the other.  An
induction on the runs with `Gone.cons` as its step: what is not in the way of the first
removal is still not in the way of the later ones, since removing puts nothing anywhere.
-/
theorem exists_forgetRuns (room : HasRoom state) (ready : IsReady state fs)
    (direct : fs.IsDirect state) (nodup : (old.map (·.id)).Nodup)
    (ids : ∀ run ∈ old, IsRunId run.id)
    (noFile : ∀ run ∈ old, fs.fileAt? (fs.placeOf state ++ [run.id]) = none)
    (noDirectory : ∀ run ∈ old,
      fs.entryAt? (fs.placeOf state ++ [run.id ++ ".json"]) ≠ some .directory) :
    ∃ after, (forgetRuns state old).on fs = (.ok (), after) ∧ IsReady state after ∧
      Keeps (traces (fs.placeOf state) old) fs after ∧ Gone (fs.placeOf state) old fs after := by
  induction old generalizing fs with
  | nil => exact ⟨fs, rfl, ready, .refl fs, by simp, by simp, by simp⟩
  | cons run rest ih =>
      obtain ⟨fresh, nodup'⟩ := List.nodup_cons.mp nodup
      have isRunId := ids run List.mem_cons_self
      obtain ⟨middle, first, ready', keeps, gone⟩ := exists_forgetRun room ready direct isRunId
        (noFile run List.mem_cons_self) (noDirectory run List.mem_cons_self)
      have ids' : ∀ other ∈ rest, IsRunId other.id := fun other mem =>
        ids other (List.mem_cons_of_mem _ mem)
      have other_ne {other : Run} (mem : other ∈ rest) : other.id ∉ [run].map (·.id) := by
        intro same
        exact fresh (List.mem_map.mpr ⟨other, mem, by simpa using same⟩)
      obtain ⟨after, others, ready'', keeps', gone'⟩ := ih ready'
        (direct.of_workingDirectory_eq keeps.workingDirectory_eq) nodup' ids'
        (fun other mem => by
          have untouched := (ids' other mem).not_mem_traces (fs.placeOf state) (other_ne mem) []
          rw [keeps.placeOf, fileAt?, keeps.entryAt?_eq _ untouched]
          exact noFile other (List.mem_cons_of_mem _ mem))
        (fun other mem => by
          have untouched := record_not_mem_traces (fs.placeOf state)
            (by simpa using isRunId) (other_ne mem)
          rw [keeps.placeOf, keeps.entryAt?_eq _ untouched]
          exact noDirectory other (List.mem_cons_of_mem _ mem))
      rw [keeps.placeOf] at keeps' gone'
      refine ⟨after, ?_, ready'', ?_, gone.cons gone' keeps keeps' ids nodup⟩
      · rw [forgetRuns, Task.on_bind_of_ok (fun _ => isDeaf_forgetRuns _ _) first, others]
      · refine (keeps.mono (traces_mono ?_)).trans (keeps'.mono (traces_mono ?_))
        · simp
        · exact List.subset_cons_self _ _

/-! ## Cleaning -/

/-- **The index is written** where nothing is in the way, and nothing else is left of
that.  The file beside the index is written and then moved, so its location ends as it
began, without a file. -/
theorem RunIndex.exists_save (ready : IsReady state fs) (canStore : CanStore state "runs.json" fs)
    (index : RunIndex) :
    ∃ after, (index.save state).on fs = (.ok (), after) ∧
      Keeps {fs.placeOf state ++ ["runs.json"]} fs after := by
  obtain ⟨after, written, stored⟩ := canStore.exists_writeAtomically isPlainName_index
    isPlainName_index_beside index.toJson.pretty
  rw [← RunIndex.file, ← RunIndex.on_save ready] at written
  have changes := RunIndex.save_changes ready index
  rw [written] at changes
  refine ⟨after, written, changes.workingDirectory_eq, fun location other => ?_⟩
  by_cases beside : location = fs.placeOf state ++ ["runs.json" ++ ".tmp"]
  · -- what the index was written through is gone, as it was before
    rw [beside, canStore.besideFree, ← changes.placeOf state]
    exact stored.besideFree
  · refine changes.entryAt?_eq ?_ (Set.notMem_empty _)
    rintro (same | same)
    · exact other same
    · exact beside same

namespace Tidy

variable (h : Tidy state runs fs)
include h

/-- **What is left is tidy** when some runs have gone.  Removing things puts nothing in
the way of anything; only being in step has to be shown anew. -/
theorem of_gone (inStep : KeptInStep state runs' after)
    (keeps : Keeps (cleared (fs.placeOf state) old) fs after)
    (gone : Gone (fs.placeOf state) old fs after) (ids : ∀ run ∈ old, IsRunId run.id)
    (sub : runs' ⊆ runs) : Tidy state runs' after := by
  refine ⟨inStep, fun name => ?_, fun id isRunId => ?_, fun run mem change hchange => ?_⟩
  · rw [keeps.placeOf, keeps.entryAt?_eq]
    · exact h.besideFree name
    · rintro (same | there)
      · exact json_ne_tmp "runs" (name ++ ".json") (by simpa using same.symm)
      · exact beside_not_mem_traces _ ids _ there
  · rw [keeps.placeOf, fileAt?]
    by_cases forgotten : id ∈ old.map (·.id)
    · obtain ⟨run, mem, rfl⟩ := List.mem_map.mp forgotten
      rw [gone.directory run mem]
    · rw [keeps.entryAt?_eq]
      · exact h.noFile id isRunId
      · rintro (same | there)
        · exact isRunId.ne_json "runs" (by simpa using same.symm)
        · exact isRunId.not_mem_traces _ forgotten [] there
  · rw [keeps.placeOf, keeps.placeOf]
    exact h.apart run (sub mem) change hchange

/-- Nothing is in the way of the index when some runs have been forgotten.  The index is
written after the removals, so that it can be written has to be known of the files in
between. -/
theorem canStore_index_of_keeps (room : HasRoom state) (ready : IsReady state middle)
    (keeps : Keeps (traces (fs.placeOf state) old) fs middle) (ids : ∀ run ∈ old, IsRunId run.id) :
    CanStore state "runs.json" middle where
  located := room.locate ready isPlainName_index (by decide) (by decide)
  besideLocated := room.locate ready isPlainName_index_beside (by decide) (by decide)
  clear := by
    rw [keeps.placeOf, keeps.entryAt?_eq _ (index_not_mem_traces _ ids)]
    exact h.record_ne_directory "runs"
  besideFree := by
    rw [keeps.placeOf, keeps.entryAt?_eq _ (beside_not_mem_traces _ ids _)]
    exact h.besideFree "runs"

/-- **Old runs are forgotten**, whatever the order of the runs, and what is left is
tidy.  The runs are gone through in any order, and the number that is returned does not
depend on it; which runs go is decided by their dates alone. -/
theorem exists_forgetOld (room : HasRoom state) (same : order.Perm runs) (isOld : Run → Bool) :
    ∃ after, (forgetOld state (order.filter isOld) (order.filter fun run => !isOld run)).on fs =
        (.ok (runs.filter isOld).length, after) ∧
      Keeps (cleared (fs.placeOf state) (runs.filter isOld)) fs after ∧
      Gone (fs.placeOf state) (runs.filter isOld) fs after ∧
      Tidy state (order.filter fun run => !isOld run) after := by
  have filed := h.toFiled.perm same
  have known {run : Run} : run ∈ order.filter isOld ↔ run ∈ runs.filter isOld :=
    (same.filter isOld).mem_iff
  have ids : ∀ run ∈ order.filter isOld, IsRunId run.id := fun run mem =>
    (h.keepable run (List.mem_of_mem_filter (known.mp mem))).isRunId
  obtain ⟨middle, forgotten, ready, keeps, gone⟩ := exists_forgetRuns room h.ready h.direct
    (filed.nodup.sublist (List.filter_sublist.map _)) ids
    (fun run mem => h.noFile run.id (ids run mem)) (fun run _ => h.record_ne_directory run.id)
  obtain ⟨after, written, keeps'⟩ := RunIndex.exists_save ready
    (h.canStore_index_of_keeps room ready keeps ids)
    ((order.filter fun run => !isOld run).foldl RunIndex.add .empty)
  rw [keeps.placeOf] at keeps'
  have done : (forgetOld state (order.filter isOld) (order.filter fun run => !isOld run)).on fs =
      (.ok (runs.filter isOld).length, after) := by
    rw [forgetOld, Task.on_bind_of_ok (fun _ => (RunIndex.isDeaf_save _ _).bind fun _ => .pure _)
      forgotten, Task.on_bind_of_ok (fun _ => .pure _) written, ← (same.filter isOld).length_eq]
    rfl
  have all : Keeps (cleared (fs.placeOf state) (runs.filter isOld)) fs after := by
    refine (keeps.mono ?_).trans (keeps'.mono (by simp [cleared]))
    exact (traces_mono fun run mem => known.mp mem).trans (Set.subset_insert _ _)
  have gone' := (gone.of_saveIndex keeps' ids).mono fun run mem => known.mpr mem
  have inStep := (filed.of_forgetOld isOld (by rw [done]; simp [WritesRecords])).1
  rw [done] at inStep
  refine ⟨after, done, all, gone', h.of_gone inStep all gone' (fun run mem => ids run (known.mpr mem))
    fun run mem => same.mem_iff.mp (List.mem_of_mem_filter mem)⟩

end Tidy

end AliasHoist
