import AliasHoist.Proofs.Runs.InStep

/-!
# Moving an index aside

An index of another format is moved to a fixed name, and a new one is started.  The first index that
is moved there is kept; the next one takes its place.

## Main Definitions

* `RunIndex.isReset`: reading the index starts a new one;
* `RunIndex.LosesNothing`: reading the index leaves all other files alone and keeps the old one
  under a new name;
* `IndexHistory`: the index of a state directory is read again and again, and written in between.

## Main Statements

* `RunIndex.changes_of_isReset`, `RunIndex.eq_of_not_isReset`: what reading the index changes;
* `RunIndex.losesNothing_iff`: nothing is lost as long as nothing has been moved aside before;
* `IndexHistory.resets_lose_nothing_iff`: over a history, nothing is lost if the index is reset once.

## Design Notes

An index of any version may be written between two readings, and other things may happen as well:
all that matters is that the file with the index that was moved aside is left alone.
`IndexHistory.save` and `IndexHistory.write` say that writing an index is such a thing.
-/

namespace AliasHoist

open FileSystem

variable {fs after : FileSystem} {state : Path}

/-- The name under which an index is moved aside is plain. -/
theorem isPlainName_index_aside : IsPlainName "runs.json.bak" :=
  isPlainName_of_length (by decide) (by decide)

namespace RunIndex

/-! ## Reading the index once -/

/-- It is beside the index, in the state directory. -/
theorem placeOf_asideFile (fs : FileSystem) (state : Path) :
    fs.placeOf (asideFile state) = fs.placeOf state ++ ["runs.json.bak"] :=
  placeOf_child state isPlainName_index_aside

/-- The index is not moved onto itself. -/
theorem placeOf_file_ne (fs : FileSystem) (state : Path) :
    fs.placeOf (file state) ≠ fs.placeOf (asideFile state) := by
  rw [placeOf_file, placeOf_asideFile]
  simp

/-- **Reading the index starts a new one**: the one that is there cannot be read, and no
error is reported.  An index that is missing is not reset, as it reads as an empty one.
-/
def isReset (state : Path) (fs : FileSystem) : Bool :=
  !(load state fs).isOk && ((loadOrReset state).on fs).1.isOk

/-- An index of another format is moved aside.  When it cannot be moved, that is the
failure that is reported, and the index stays. -/
theorem on_loadOrReset_of_otherFormat {reason : RunError} (unread : load state fs = .error reason)
    (other : isOtherFormat reason = true) :
    (loadOrReset state).on fs =
      match fs.rename (file state) (asideFile state) with
      | .ok after => (.ok empty, after)
      | .error failure => (.error (.moveAside (file state) failure), fs) := by
  have deaf (value : Unit) : Task.IsDeaf (do
      Task.change (ε := RunError) (·.rename (file state) (asideFile state))
        (.moveAside (file state))
      return empty) :=
    (Task.isDeaf_change _ _).bind fun _ => .pure _
  rw [loadOrReset, Task.on_files_bind, unread]
  dsimp only
  rw [if_pos other, Task.on_bind_of_ok deaf (Task.on_log fs _ _ _),
    Task.on_bind _ fun _ => .pure _, Task.on_change]
  cases fs.rename (file state) (asideFile state) <;> rfl

/-- Any other failure is reported.  Such failures are those of reading the file;
resetting would not help. -/
theorem on_loadOrReset_of_error {reason : RunError} (unread : load state fs = .error reason)
    (other : isOtherFormat reason = false) : (loadOrReset state).on fs = (.error reason, fs) := by
  rw [loadOrReset, Task.on_files_bind, unread]
  simp only [other, Bool.false_eq_true, if_false]
  rfl

/-- **An index that is reset is of another format**, and moving it aside succeeds.  It
takes the outcome apart into what happened to the files. -/
theorem isReset_iff :
    isReset state fs = true ↔
      ∃ reason after, load state fs = .error reason ∧ isOtherFormat reason = true ∧
        fs.rename (file state) (asideFile state) = .ok after ∧
        (loadOrReset state).on fs = (.ok empty, after) := by
  cases loaded : load state fs with
  | ok index => simp [isReset, loaded, Except.isOk, Except.toBool]
  | error reason =>
      cases other : isOtherFormat reason with
      | false =>
          simp [isReset, loaded, on_loadOrReset_of_error loaded other, Except.isOk, Except.toBool]
      | true =>
          rw [isReset, loaded, on_loadOrReset_of_otherFormat loaded other]
          cases fs.rename (file state) (asideFile state) <;>
            simp [Except.isOk, Except.toBool, other]

/-- **When no new index is started, nothing changes.**  Either the index was read, or
the failure was reported. -/
theorem eq_of_not_isReset (h : isReset state fs = false) : ((loadOrReset state).on fs).2 = fs := by
  cases loaded : load state fs with
  | ok index => rw [on_loadOrReset loaded]
  | error reason =>
      cases other : isOtherFormat reason with
      | false => rw [on_loadOrReset_of_error loaded other]
      | true =>
          have moved := on_loadOrReset_of_otherFormat loaded other
          cases renamed : fs.rename (file state) (asideFile state) with
          | error failure => rw [moved, renamed]
          | ok after =>
              rw [renamed] at moved
              rw [isReset_iff.mpr ⟨reason, after, loaded, other, renamed, moved⟩] at h
              contradiction

/-- Only what is in the file of the index can be of another format.  So there is a file
to be moved. -/
theorem exists_stat_of_otherFormat {reason : RunError} (unread : load state fs = .error reason)
    (other : isOtherFormat reason = true) :
    ∃ content writable,
      fs.stat (file state) = .ok (fs.placeOf (file state), .file content writable) := by
  rw [load] at unread
  split at unread
  · contradiction
  · cases read : fs.readText (file state) with
    | error failure =>
        simp only [read, Except.error.injEq] at unread
        rw [← unread] at other
        have same : isOtherFormat (.readIndex failure) = false := by
          show Text.isPartOf "missing field" "Failed to read runs index" = false
          decide
        simp [same] at other
    | ok text =>
        obtain ⟨location, writable, found⟩ := readText_eq_ok_iff.mp read
        obtain rfl := eq_placeOf_of_stat found
        exact ⟨_, writable, found⟩

/-- **What starting a new index changes**: the old one is under another name.  It has
its content there, whatever that is, and what had this name before is gone. -/
theorem changes_of_isReset (h : isReset state fs = true) :
    ∃ content writable,
      fs.entryAt? (fs.placeOf (file state)) = some (.file content writable) ∧
      Changes {fs.placeOf (file state), fs.placeOf (asideFile state)} ∅ fs
        ((loadOrReset state).on fs).2 ∧
      ((loadOrReset state).on fs).2.entryAt? (fs.placeOf (asideFile state)) =
        some (.file content writable) := by
  obtain ⟨reason, after, unread, other, renamed, moved⟩ := isReset_iff.mp h
  obtain ⟨content, writable, found⟩ := exists_stat_of_otherFormat unread other
  obtain ⟨changes, held, -⟩ := rename_file_changes found renamed (placeOf_file_ne fs state)
  rw [moved]
  exact ⟨content, writable, (stat_eq_ok_iff.mp found).2.1, changes, held⟩

/-- An index is not moved into the place of a directory.  That is a failure, so in a
reset there was a file or nothing. -/
theorem aside_of_isReset (h : isReset state fs = true) :
    fs.entryAt? (fs.placeOf (asideFile state)) ≠ some .directory := by
  obtain ⟨reason, after, unread, other, renamed, moved⟩ := isReset_iff.mp h
  obtain ⟨content, writable, found⟩ := exists_stat_of_otherFormat unread other
  obtain ⟨goal, located, clear, -⟩ := (rename_file_eq_ok_iff found).mp renamed
  obtain rfl := eq_placeOf_of_locate located
  exact clear

/-- **Reading the index loses nothing**: every other file keeps its content, an index that is moved
aside is kept under a name that was free, and nothing changes if none is. -/
structure LosesNothing (state : Path) (fs : FileSystem) : Prop where
  others : ∀ location held, location ≠ fs.placeOf (file state) →
    fs.fileAt? location = some held →
    ((loadOrReset state).on fs).2.fileAt? location = some held
  moved : isReset state fs = true → ∃ location held, fs.entryAt? location = none ∧
    fs.fileAt? (fs.placeOf (file state)) = some held ∧
    ((loadOrReset state).on fs).2.fileAt? location = some held
  untouched : isReset state fs = false → ((loadOrReset state).on fs).2 = fs

/-- **Reading the index loses nothing as long as nothing has been moved aside before.**
Replacing what was moved aside before is the only way of losing something. -/
theorem losesNothing_iff :
    LosesNothing state fs ↔
      (isReset state fs = true → fs.fileAt? (fs.placeOf (asideFile state)) = none) := by
  constructor
  · intro keeps reset
    obtain ⟨content, writable, -, changes, -⟩ := changes_of_isReset reset
    obtain ⟨location, held, free, index, there⟩ := keeps.moved reset
    -- a location that was free and has a file now is the one to which the index was moved
    by_cases aside : location = fs.placeOf (asideFile state)
    · rw [fileAt?, ← aside, free]
    · have other : location ≠ fs.placeOf (file state) := by
        rintro rfl
        rw [fileAt?, free] at index
        contradiction
      rw [changes.fileAt?_eq (by simp [aside, other]), fileAt?, free] at there
      contradiction
  · intro free
    refine ⟨fun location held other there => ?_, fun reset => ?_, eq_of_not_isReset⟩
    · cases reset : isReset state fs with
      | false => rwa [eq_of_not_isReset reset]
      | true =>
          obtain ⟨-, -, -, changes, -⟩ := changes_of_isReset reset
          rw [changes.fileAt?_eq, there]
          rintro (rfl | rfl)
          · exact other rfl
          · rw [free reset] at there
            contradiction
    · obtain ⟨content, writable, held, -, moved⟩ := changes_of_isReset reset
      refine ⟨_, (content, writable), ?_, fileAt?_eq_some_iff.mpr held,
        fileAt?_eq_some_iff.mpr moved⟩
      exact entryAt?_eq_none_iff.mpr ⟨free reset, aside_of_isReset reset⟩

end RunIndex

/-! ## Reading the index again and again -/

/-- **What happens to the index of a state directory.**  It is read, which may start a new one, and
anything else happens that leaves alone what was moved aside.  The files at the readings are kept. -/
inductive IndexHistory (state : Path) (first : FileSystem) :
    List FileSystem → FileSystem → Prop where
  | start : IndexHistory state first [] first
  /-- The index is read, or a new one started. -/
  | read {calls : List FileSystem} {fs : FileSystem} (before : IndexHistory state first calls fs) :
      IndexHistory state first (calls ++ [fs]) ((RunIndex.loadOrReset state).on fs).2
  /-- Something else happens, as when an index of any version is written. -/
  | other {calls : List FileSystem} {fs after : FileSystem}
      (before : IndexHistory state first calls fs)
      (place : after.placeOf (RunIndex.asideFile state) = fs.placeOf (RunIndex.asideFile state))
      (spared : after.fileAt? (fs.placeOf (RunIndex.asideFile state)) =
        fs.fileAt? (fs.placeOf (RunIndex.asideFile state))) :
      IndexHistory state first calls after

namespace IndexHistory

open RunIndex

variable {first : FileSystem} {calls : List FileSystem}

/-- Changes elsewhere are part of a history.  The place where the index was moved to is
all that has to be spared. -/
theorem of_changes {written made : Set Location} (h : IndexHistory state first calls fs)
    (changes : Changes written made fs after)
    (spared : fs.placeOf (asideFile state) ∉ written) : IndexHistory state first calls after :=
  h.other (changes.placeOf _) (changes.fileAt?_eq spared)

/-- **A text is written in the place of the index**, as by another version.  The index
may be replaced by one of another format between two readings, which is how it comes to
be reset twice. -/
theorem write (h : IndexHistory state first calls fs) (text : String) :
    IndexHistory state first calls ((writeAtomically (file state) text).on fs).2 := by
  refine h.of_changes
    (writeAtomically_changes fs state text isPlainName_index isPlainName_index_beside) ?_
  rw [placeOf_asideFile]
  simp [slot]

/-- **An index is written**, by this version.  It goes through a file beside the index
and not through the one that was moved aside. -/
theorem save (h : IndexHistory state first calls fs) (index : RunIndex) :
    IndexHistory state first calls ((index.save state).on fs).2 := by
  have made := h.of_changes (makeDirectories_changes fs state) (Set.notMem_empty _)
  rw [RunIndex.save, Task.on_bind _ fun _ => isDeaf_writeAtomically _ _, Task.on_makeDirectories]
  cases hmade : (fs.makeDirectories state).2 with
  | error reason => exact made
  | ok done => exact made.write _

/-- Nothing has been moved aside when there was nothing to begin with and no index was
reset.  Each reset puts a file there and nothing in a history takes it away, so there
being none counts the resets. -/
theorem fileAt?_aside_eq_none_iff (h : IndexHistory state first calls fs) :
    fs.fileAt? (fs.placeOf (asideFile state)) = none ↔
      first.fileAt? (first.placeOf (asideFile state)) = none ∧
        calls.countP (isReset state) = 0 := by
  induction h with
  | start => simp
  | @read calls fs before ih =>
      cases reset : isReset state fs with
      | false => simp [eq_of_not_isReset reset, ih, reset]
      | true =>
          obtain ⟨content, writable, -, changes, moved⟩ := changes_of_isReset reset
          rw [changes.placeOf, fileAt?_eq_some_iff.mpr moved]
          simp [reset]
  | other before place spared ih => rw [place, spared, ih]

/-- **Over a history nothing is lost exactly if the index is reset at most once**, and not at all if
something was moved aside before. -/
theorem resets_lose_nothing_iff (h : IndexHistory state first calls after) :
    (∀ fs ∈ calls, LosesNothing state fs) ↔
      calls.countP (isReset state) ≤
        if first.fileAt? (first.placeOf (asideFile state)) = none then 1 else 0 := by
  induction h with
  | start => simp
  | @read calls fs before ih =>
      have free := before.fileAt?_aside_eq_none_iff
      rw [List.forall_mem_append, ih, List.forall_mem_singleton, RunIndex.losesNothing_iff,
        List.countP_append, List.countP_singleton]
      cases reset : isReset state fs with
      | false => simp
      | true =>
          simp only [free, forall_const, if_true]
          by_cases nothing : first.fileAt? (first.placeOf (asideFile state)) = none
          · simp only [nothing, if_true, true_and]
            omega
          · simp [nothing]
  | other before place spared ih => exact ih

end IndexHistory

namespace Specimen

open RunIndex

/-- An index of a format that had no runs. -/
def oldIndex : String := "{}"

/-- An index of another such format. -/
def olderIndex : String := "\x7b\"entries\": []\x7d"

theorem decodeText_oldIndex :
    Json.decodeText (RunIndex.decode .text) oldIndex = .error (.missingField "runs") := by
  decide

theorem decodeText_olderIndex :
    Json.decodeText (RunIndex.decode .text) olderIndex = .error (.missingField "runs") := by
  decide

/-- A state directory with an index. -/
def indexed (index : String) : FileSystem := spoiltFiles "" index

/-- The same directory with an index that was moved aside. -/
def movedAside (index : String) : FileSystem :=
  (besideFiles "").put ["s", "runs.json.bak"] (.file (.text index) true)

/-- The same directory with a second index beside the one that was moved aside. -/
def indexedAgain (index second : String) : FileSystem :=
  (movedAside index).put ["s", "runs.json"] (.file (.text second) true)

variable {index second : String}

theorem load_of_decodeText {fs : FileSystem} (read : fs.readText (file records) = .ok index)
    (h : Json.decodeText (RunIndex.decode .text) index = .error (.missingField "runs")) :
    load records fs = .error (.parseIndex (.missingField "runs")) := by
  rw [load_of_readText read, h]
  rfl

theorem on_loadOrReset_indexed
    (h : Json.decodeText (RunIndex.decode .text) index = .error (.missingField "runs")) :
    (loadOrReset records).on (indexed index) = (.ok .empty, movedAside index) := by
  rw [on_loadOrReset_of_otherFormat (load_of_decodeText rfl h) (by decide)]
  rfl

/-- The index that was moved aside gives way to the second one. -/
theorem on_loadOrReset_indexedAgain
    (h : Json.decodeText (RunIndex.decode .text) second = .error (.missingField "runs")) :
    (loadOrReset records).on (indexedAgain index second) = (.ok .empty, movedAside second) := by
  rw [on_loadOrReset_of_otherFormat (load_of_decodeText rfl h) (by decide)]
  rfl

theorem on_write_movedAside :
    (writeAtomically (file records) second).on (movedAside index) =
      (.ok (), indexedAgain index second) := rfl

theorem isReset_oldIndex : isReset records (indexed oldIndex) = true := by
  rw [isReset, load_of_decodeText rfl decodeText_oldIndex,
    on_loadOrReset_indexed decodeText_oldIndex]
  rfl

/-- The history of a directory in which the index has been moved aside. -/
theorem history_movedAside :
    IndexHistory records (indexed oldIndex) [indexed oldIndex] (movedAside oldIndex) := by
  have moved : ((loadOrReset records).on (indexed oldIndex)).2 = movedAside oldIndex := by
    rw [on_loadOrReset_indexed decodeText_oldIndex]
  exact moved ▸ IndexHistory.start.read

end Specimen

open Specimen RunIndex in
/-- The first index that is moved aside is kept. -/
theorem IndexHistory.resets_lose_nothing_iff_specimen :
    LosesNothing records (indexed oldIndex) ∧ LosesNothing records (movedAside oldIndex) := by
  have again : isReset records (movedAside oldIndex) = false := rfl
  have once : [indexed oldIndex, movedAside oldIndex].countP (isReset records) = 1 := by
    simp [isReset_oldIndex, again]
  have kept := history_movedAside.read.resets_lose_nothing_iff.mpr (Nat.le_of_eq once)
  exact ⟨kept _ (.head _), kept _ (.tail _ (.head _))⟩

open Specimen RunIndex in
/-- **A second index that is moved aside takes the place of the first**, which is lost. -/
theorem index_moved_aside_lost :
    ¬ ∀ (state : Path) (first : FileSystem) (calls : List FileSystem) (last : FileSystem),
      IndexHistory state first calls last → ∀ fs ∈ calls, LosesNothing state fs := by
  intro always
  have written := history_movedAside.write olderIndex
  rw [on_write_movedAside] at written
  have keeps := always _ _ _ _ written.read _ (List.mem_append_right _ (.head _))
  have kept := keeps.others ["s", "runs.json.bak"] (.text oldIndex, true) (by decide) rfl
  rw [on_loadOrReset_indexedAgain decodeText_olderIndex] at kept
  exact absurd kept (by decide)

end AliasHoist
