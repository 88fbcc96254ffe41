import AliasHoist.Proofs.Runs.InStep

/-!
# Tidy state directories

Runs are kept in step as long as their records can be written.  In a state directory in which nothing
but the program has been at work they always can: there is room for the paths of records, nothing is
left of the files through which records are written, and where runs have their directories there is no
file.

## Main Definitions

* `HasRoom`: the paths of records can be followed;
* `recordPlaces`, `runPlaces`: where records are, and where runs have their directories;
* `Tidy`: runs are in step, and nothing is in the way of their records and directories;
* `markUndone`: some runs, with one of them undone.

## Main Statements

* `Tidy.of_keeps`: a directory stays tidy while something else changes;
* `Tidy.exists_save`: recording a run succeeds;
* `Tidy.of_saved_new`, `Tidy.exists_save_undone`: a directory stays tidy when runs are recorded;
* `Tidy.of_restoreAll`, `Tidy.revertRun_cases`: and when they are undone.
-/

namespace AliasHoist

open FileSystem

variable {fs before after : FileSystem} {state : Path} {name id : String} {run : Run}
  {runs next : List Run} {touched : Set Location}

/-! ## Room -/

/-- A hexadecimal digit takes one byte. -/
theorem Text.utf8Size_of_hexValue? {c : Char} (h : (Text.hexValue? c).isSome = true) :
    c.utf8Size = 1 := by
  have small : c.val.toNat ≤ 'f'.val.toNat := by
    simp only [Text.hexValue?] at h
    split at h
    · rename_i digit
      exact Nat.le_trans (UInt32.le_iff_toNat_le.mp digit.2) (by decide)
    · split at h
      · rename_i letter
        exact UInt32.le_iff_toNat_le.mp letter.2
      · split at h
        · rename_i letter
          exact Nat.le_trans (UInt32.le_iff_toNat_le.mp letter.2) (by decide)
        · simp at h
  have ascii : c.val ≤ 0x7F :=
    UInt32.le_iff_toNat_le.mpr (Nat.le_trans small (by decide))
  exact Char.utf8Size_eq_one_iff.mpr ascii

/-- Identifiers all take seven bytes, so whether the path of a record can be followed is
the same for all runs, and `HasRoom` can speak of one of them. -/
theorem IsRunId.utf8ByteSize_eq (h : IsRunId id) : id.utf8ByteSize = 7 := by
  rw [Text.utf8ByteSize_of_forall fun c mem => Text.utf8Size_of_hexValue? (h.digits c mem),
    h.length_eq]

/-- An identifier can be part of a path: it has no character that the system refuses. -/
theorem IsRunId.nul_not_mem (h : IsRunId id) : '\x00' ∉ id.toList := by
  intro mem
  have digit := h.digits _ mem
  revert digit
  decide

/-- **There is room for records**: the file through which that of a run is written has a
path that can be followed.  No record has a longer name.  The zeros stand for any
identifier, as all take the same room. -/
def HasRoom (state : Path) : Prop :=
  isFollowable (state.child ("0000000" ++ ".json" ++ ".tmp")) = true

/-- Where there is room for records, every name that is no longer has its location.
Sixteen bytes are those of the longest name that is ever written, an identifier with
both endings. -/
theorem HasRoom.locate (room : HasRoom state) (ready : IsReady state fs) (plain : IsPlainName name)
    (noNul : '\x00' ∉ name.toList) (short : name.utf8ByteSize ≤ 16) :
    fs.locate (state.child name) = .ok (fs.placeOf state ++ [name]) := by
  have longest : IsPlainName ("0000000" ++ ".json" ++ ".tmp") :=
    isPlainName_of_length (by decide) (by decide)
  have size : ("0000000" ++ ".json" ++ ".tmp" : String).utf8ByteSize = 16 := by decide
  refine (locate_child_iff plain).mpr ⟨ready.leads, ?_, Nat.le_trans short (by decide), rfl⟩
  exact isFollowable_child_of_le longest plain noNul (by rw [size]; exact short) room

/-! ## Where the program writes -/

/-- **The locations of records**, and of the files through which they are written.  Any
name will do, not only that of a run: a file with such a name in the state directory
would be taken for a record. -/
def recordPlaces (place : Location) : Set Location :=
  {location | ∃ name, location = place ++ [name ++ ".json"] ∨
    location = place ++ [name ++ ".json" ++ ".tmp"]}

/-- **The locations at which runs have their directories.**  Any identifier will do,
also of a run that does not exist yet, because a file at such a place would be in the
way of that run. -/
def runPlaces (place : Location) : Set Location :=
  {location | ∃ id, IsRunId id ∧ location = place ++ [id]}

/-- What recording a run touches is where records are. -/
theorem recordSlots_subset_recordPlaces (place : Location) (id : String) :
    recordSlots place id ⊆ recordPlaces place := by
  rintro location ((rfl | rfl) | (rfl | rfl))
  · exact ⟨id, .inl rfl⟩
  · exact ⟨id, .inr rfl⟩
  · exact ⟨"runs", .inl rfl⟩
  · exact ⟨"runs", .inr rfl⟩

/-- No run has its directory where a record is. -/
theorem IsRunId.not_mem_recordPlaces (h : IsRunId id) (place : Location) :
    place ++ [id] ∉ recordPlaces place := by
  rintro ⟨name, same | same⟩
  · exact h.ne_json name (by simpa using same.symm)
  · exact h.ne_tmp (name ++ ".json") (by simpa using same.symm)

/-! ## Tidy directories -/

/-- **Runs in step in a directory in which nothing is in the way**: nothing is left of
the files through which records are written, no file is where a run has its directory,
and no source of a run is at such a place.  Being in step only says what is there.  This
adds what is not, and so recording, undoing and cleaning can be shown to succeed and not
only to do no harm when they do. -/
structure Tidy (state : Path) (runs : List Run) (fs : FileSystem) : Prop
    extends KeptInStep state runs fs where
  besideFree : ∀ name, fs.entryAt? (fs.placeOf state ++ [name ++ ".json" ++ ".tmp"]) = none
  noFile : ∀ id, IsRunId id → fs.fileAt? (fs.placeOf state ++ [id]) = none
  apart : ∀ run ∈ runs, ∀ change ∈ run.changes,
    fs.placeOf change.path ∉ recordPlaces (fs.placeOf state) ∪ runPlaces (fs.placeOf state)

/-- **An empty directory is tidy.**  It is the start of every history. -/
theorem IsEmptyDirectory.tidy (h : IsEmptyDirectory state fs) : Tidy state [] fs where
  toKeptInStep := h.inStep
  besideFree name := h.empty _ (List.prefix_append _ _) (by simp)
  noFile id _ := by
    rw [fileAt?, h.empty _ (List.prefix_append _ _) (by simp)]
  apart := by simp

/-- **A directory stays tidy** while no record is touched and no file comes to be where
a run has its directory.  Editing sources and keeping backups are of this kind. -/
theorem Tidy.of_keeps (h : Tidy state runs before) (keeps : Keeps touched before after)
    (ready : IsReady state after)
    (untouched : ∀ location ∈ recordPlaces (before.placeOf state), location ∉ touched)
    (noFile : ∀ id, IsRunId id → after.fileAt? (before.placeOf state ++ [id]) = none) :
    Tidy state runs after where
  toKeptInStep := h.toKeptInStep.of_keeps keeps ready fun name => untouched _ ⟨name, .inl rfl⟩
  besideFree name := by
    rw [keeps.placeOf, keeps.entryAt?_eq _ (untouched _ ⟨name, .inr rfl⟩)]
    exact h.besideFree name
  noFile id isRunId := by
    rw [keeps.placeOf]
    exact noFile id isRunId
  apart run mem change hchange := by
    rw [keeps.placeOf, keeps.placeOf]
    exact h.apart run mem change hchange

namespace Tidy

variable (h : Tidy state runs fs)
include h

/-- There is no directory where a record is.  It follows from being in step: a listed
run has a file there, and no other name has anything. -/
theorem record_ne_directory (name : String) :
    fs.entryAt? (fs.placeOf state ++ [name ++ ".json"]) ≠ some .directory := by
  by_cases index : name = "runs"
  · subst index
    show fs.entryAt? (fs.placeOf state ++ ["runs.json"]) ≠ some .directory
    rcases h.index with ⟨-, absent⟩ | holds
    · simp [absent]
    · simp [holds.held]
  · by_cases known : name ∈ runs.map (·.id)
    · obtain ⟨run, mem, rfl⟩ := List.mem_map.mp known
      simp [(h.records run mem).held]
    · simp [h.others name index known]

/-- **Nothing is in the way of a record.**  The bound on the name is that of an
identifier, which is also long enough for the index. -/
theorem canStore (room : HasRoom state) (name : String) (plain : IsPlainName (name ++ ".json"))
    (plain' : IsPlainName (name ++ ".json" ++ ".tmp")) (noNul : '\x00' ∉ name.toList)
    (short : name.utf8ByteSize ≤ 7) : CanStore state (name ++ ".json") fs where
  located := by
    refine room.locate h.ready plain (by simpa using noNul) ?_
    have size : (".json" : String).utf8ByteSize = 5 := by decide
    rw [String.utf8ByteSize_append, size]
    omega
  besideLocated := by
    refine room.locate h.ready plain' (by simpa using noNul) ?_
    have size : (".json" : String).utf8ByteSize = 5 := by decide
    have size' : (".tmp" : String).utf8ByteSize = 4 := by decide
    rw [String.utf8ByteSize_append, String.utf8ByteSize_append, size, size']
    omega
  clear := h.record_ne_directory name
  besideFree := h.besideFree name

/-- Nothing is in the way of the index. -/
theorem canStore_index (room : HasRoom state) : CanStore state "runs.json" fs :=
  h.canStore room "runs" isPlainName_index isPlainName_index_beside (by decide) (by decide)

/-- Nothing is in the way of the file of a run, be it listed already or new. -/
theorem canStore_run (room : HasRoom state) (isRunId : IsRunId id) :
    CanStore state (id ++ ".json") fs :=
  h.canStore room id isRunId.isPlainName_file isRunId.isPlainName_beside isRunId.nul_not_mem
    (Nat.le_of_eq isRunId.utf8ByteSize_eq)

/-! ### Recording runs -/

/-- **Recording a run succeeds.**  A new run as well as one that is recorded anew; which
of the two it is shows in the index only. -/
theorem exists_save (room : HasRoom state) (isRunId : IsRunId run.id) :
    ∃ after, (run.save state).on fs = (.ok (), after) :=
  Run.exists_save h.ready run isRunId (h.canStore_run room isRunId) (h.canStore_index room) h.ofEntry

/-- **A directory stays tidy when a run is recorded.**  The runs afterwards are given by
what they are known to be, so that one statement serves a new run and one that has been
undone. -/
theorem of_save (isRunId : IsRunId run.id) (saved : (run.save state).on fs = (.ok (), after))
    (inStep : KeptInStep state next after)
    (sources : ∀ change ∈ run.changes,
      fs.placeOf change.path ∉ recordPlaces (fs.placeOf state) ∪ runPlaces (fs.placeOf state))
    (known : ∀ other ∈ next, other ∈ runs ∨ other.changes = run.changes) :
    Tidy state next after := by
  have changes := Run.save_changes h.ready run isRunId
  rw [saved] at changes
  obtain ⟨stored, listed⟩ := Run.save_spec h.ready run isRunId saved (by simp)
  have index := (listed _ h.ofEntry).2
  refine ⟨inStep, fun name => ?_, fun other isRunId' => ?_, fun other mem change hchange => ?_⟩
  · by_cases slot : fs.placeOf state ++ [name ++ ".json" ++ ".tmp"] ∈ recordSlots (fs.placeOf state) run.id
    · rw [changes.placeOf]
      rcases slot with (same | same) | (same | same)
      · exact absurd (by simpa using same.symm) (json_ne_tmp run.id (name ++ ".json"))
      · rw [same, ← changes.placeOf state]
        exact stored.besideFree
      · exact absurd (by simpa using same.symm) (json_ne_tmp "runs" (name ++ ".json"))
      · rw [same, ← changes.placeOf state]
        exact index.besideFree
    · rw [changes.placeOf, changes.entryAt?_eq slot (Set.notMem_empty _)]
      exact h.besideFree name
  · rw [changes.placeOf, changes.fileAt?_eq fun slot =>
      isRunId'.not_mem_recordPlaces _ (recordSlots_subset_recordPlaces _ _ slot)]
    exact h.noFile other isRunId'
  · rw [changes.placeOf, changes.placeOf]
    rcases known other mem with old | same
    · exact h.apart other old change hchange
    · exact sources change (same ▸ hchange)

/-- **A new run is recorded.**  That it has not been undone is not asked for; the marks
only have to agree with each other. -/
theorem of_saved_new (room : HasRoom state) (isRunId : IsRunId run.id)
    (storable : run.isStorable = true) (marked : run.status = .reverted ↔ run.canRevert = false)
    (sources : ∀ change ∈ run.changes,
      fs.placeOf change.path ∉ recordPlaces (fs.placeOf state) ∪ runPlaces (fs.placeOf state))
    (fresh : run.id ∉ runs.map (·.id)) :
    Tidy state (runs ++ [run]) ((run.save state).on fs).2 := by
  obtain ⟨after, saved⟩ := h.exists_save room isRunId
  rw [saved]
  have keepable : IsKeepable state run fs := by
    refine ⟨isRunId, storable, marked, fun change mem name same => sources change mem (.inl ?_)⟩
    exact ⟨name, .inl same⟩
  have inStep := h.toKeptInStep.of_saved_new keepable fresh saved (by simp [WritesRecords])
  refine h.of_save isRunId saved inStep sources fun other mem => ?_
  rcases List.mem_append.mp mem with old | new
  · exact .inl old
  · exact .inr (by rw [List.mem_singleton.mp new])

end Tidy

/-! ## Undoing runs -/

/-- **Some runs, with one of them undone.**  Undoing never changes the order of the runs
or their number. -/
def markUndone (id : String) (runs : List Run) : List Run :=
  runs.map fun run => if run.id = id then run.undone else run

/-- Runs keep their identifiers when one of them is undone. -/
@[simp] theorem ids_markUndone (id : String) (runs : List Run) :
    (markUndone id runs).map (·.id) = runs.map (·.id) := by
  rw [markUndone, List.map_map]
  refine List.map_congr_left fun run _ => ?_
  simp only [Function.comp_apply]
  split <;> rfl

/-- Marking is replacing, where identifiers are unique. -/
theorem markUndone_append {earlier later : List Run}
    (nodup : ((earlier ++ run :: later).map (·.id)).Nodup) :
    markUndone run.id (earlier ++ run :: later) = earlier ++ run.undone :: later := by
  have others {part : List Run} (sub : part ⊆ earlier ++ later) : markUndone run.id part = part := by
    refine (List.map_congr_left fun other mem => ?_).trans (List.map_id part)
    exact if_neg (RunIndex.id_ne_of_nodup nodup (sub mem))
  have front := others (List.subset_append_left earlier later)
  have back := others (List.subset_append_right earlier later)
  rw [markUndone] at front back ⊢
  rw [List.map_append, List.map_cons, front, back, if_pos rfl]

namespace Tidy

variable (h : Tidy state runs fs)
include h

/-- **Bringing contents back leaves the directory tidy.**  The sources are at no place
of the program, so writing to them cannot be in the way of anything, however the
restoring ends. -/
theorem of_restoreAll (mem : run ∈ runs) (id : String) :
    Tidy state runs ((restoreAll id state run.changes).on fs).2 := by
  have changes := restoreAll_changes id state run.changes fs
  refine h.of_keeps (Keeps.of_changes changes) (h.ready.of_changes changes) ?_ fun other isRunId => ?_
  · rintro location record (⟨change, hchange, rfl⟩ | there)
    · exact h.apart run mem change hchange (.inl record)
    · exact there
  · rw [changes.fileAt?_eq ?_]
    · exact h.noFile other isRunId
    · rintro ⟨change, hchange, same⟩
      exact h.apart run mem change hchange (.inr ⟨other, isRunId, same.symm⟩)

/-- **A run that has been undone is recorded anew.**  The marked run takes the place of
the old one in the index and in its file. -/
theorem exists_save_undone (room : HasRoom state) (mem : run ∈ runs) :
    ∃ after, (run.undone.save state).on fs = (.ok (), after) ∧
      Tidy state (markUndone run.id runs) after := by
  have keepable := h.keepable run mem
  have isRunId : IsRunId run.undone.id := keepable.isRunId
  obtain ⟨after, saved⟩ := h.exists_save room isRunId
  refine ⟨after, saved, h.of_save isRunId saved ?_ (h.apart run mem) fun other known => ?_⟩
  · obtain ⟨earlier, later, rfl⟩ := List.append_of_mem mem
    rw [markUndone_append h.nodup]
    exact h.toKeptInStep.of_saved_again keepable.undone rfl saved (by simp [WritesRecords])
  · obtain ⟨old, hold, rfl⟩ := List.mem_map.mp known
    split
    · rename_i same
      obtain rfl := List.inj_on_of_nodup_map h.nodup hold mem same
      exact .inr rfl
    · exact .inl hold

/-- The run under an identifier is the one with that identifier.  An identifier cannot
lead out of the directory, so what is found is a record that the program has written. -/
theorem mem_of_load_run (isRunId : IsRunId id) (loaded : Run.load id state fs = .ok run) :
    run ∈ runs ∧ run.id = id := by
  have place : fs.placeOf (runFile id state) = fs.placeOf state ++ [id ++ ".json"] :=
    placeOf_child state isRunId.isPlainName_file
  obtain ⟨mem, same⟩ := h.mem_of_load (fun _ => ⟨_, place⟩) loaded
  refine ⟨mem, ?_⟩
  by_contra ne
  exact json_ne_json ne (by simpa using same.symm.trans place)

/-- **Undoing a run leaves the directory tidy**, with the run marked or with all runs as
they were.  The first case has all the failures in it, also those after some sources
have been brought back. -/
theorem revertRun_cases (room : HasRoom state) (isRunId : IsRunId id) (force : Bool) :
    (∃ reason after, (revertRun id force state).on fs = (.error reason, after) ∧
        Tidy state runs after) ∨
      ∃ after, (revertRun id force state).on fs = (.ok (), after) ∧
        Tidy state (markUndone id runs) after := by
  rcases on_revertRun_cases id force state fs with ⟨reason, failed⟩ | ⟨run, loaded, -, undoes⟩
  · exact .inl ⟨reason, fs, failed, h⟩
  · obtain ⟨mem, rfl⟩ := h.mem_of_load_run isRunId loaded
    have restored := h.of_restoreAll mem run.id
    rw [undoes, on_undoRun_eq]
    rcases hrestore : (restoreAll run.id state run.changes).on fs with ⟨reason | done, middle⟩
    · rw [hrestore] at restored
      exact .inl ⟨reason, middle, rfl, restored⟩
    · rw [hrestore] at restored
      obtain ⟨after, saved, tidy⟩ := restored.exists_save_undone room mem
      exact .inr ⟨after, saved, tidy⟩

end Tidy

end AliasHoist
