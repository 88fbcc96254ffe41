import AliasHoist.Proofs.Runs.RoundTrip
import AliasHoist.Proofs.Runs.Storing
import AliasHoist.Runs.Revert

/-!
# Undoing one run

The records of some runs are a ledger: the index lists them, and each of them has a file of its own.
Undoing a run of the ledger whose files are as the run left them brings their contents back and marks
the run in the ledger.

## Main Definitions

* `Ledger`: some runs are recorded in a state directory;
* `Restorable`: the change of a file can be undone.

## Main Statements

* `Ledger.of_changes`: the ledger stays, away from the changes;
* `Run.load_of_stored`, `Ledger.load`, `Ledger.load_index`: the runs are read back;
* `Ledger.exists_save`: a run that is recorded can be recorded anew;
* `exists_restoreAll`: bringing contents back;
* `Ledger.exists_revertRun`: undoing a run.
-/

namespace AliasHoist

open FileSystem

variable {fs after : FileSystem} {state : Path} {id : String} {runs earlier later : List Run}
  {run old : Run}

/-! ## The ledger -/

/-- **Some runs are recorded in a state directory**, each in its own file and all of
them in the index.  It says more than that the runs are in step: how each record can be
written again is part of `Stored`. -/
structure Ledger (state : Path) (runs : List Run) (fs : FileSystem) : Prop where
  ids : ∀ run ∈ runs, IsRunId run.id
  nodup : (runs.map (·.id)).Nodup
  storable : ∀ run ∈ runs, run.isStorable = true
  records : ∀ run ∈ runs, Stored state (run.id ++ ".json") run.toJson.pretty fs
  /-- Without runs there is no index. -/
  unlisted : runs = [] → fs.entryAt? (fs.placeOf state ++ ["runs.json"]) = none
  listed : runs ≠ [] → Stored state "runs.json" (RunIndex.ofRuns runs).toJson.pretty fs

/-- A name that is too long for the identifier of a run.  It tells names in the state
directory apart without looking at their characters. -/
theorem IsRunId.ne_of_length {name : String} (h : IsRunId id) (long : name.toList.length ≠ 7) :
    name ≠ id := by
  rintro rfl
  exact long h.length_eq

/-- A run is read back from its file.  Nothing is asked of the identifier here, so this
also reads files outside the state directory. -/
theorem Run.load_of_readText (storable : run.isStorable = true)
    (read : fs.readText (runFile id state) = .ok run.toJson.pretty) :
    Run.load id state fs = .ok run :=
  Run.load_eq_ok_iff.mpr ⟨_, read, Run.decodeText_pretty storable⟩

/-- A run is found by its identifier when its file is stored.  With its identifier the
file of the run has a plain name, and its path is short enough. -/
theorem Run.load_of_stored (isRunId : IsRunId run.id) (storable : run.isStorable = true)
    (stored : Stored state (run.id ++ ".json") run.toJson.pretty fs) :
    Run.load run.id state fs = .ok run :=
  Run.load_of_readText storable (stored.readText isRunId.isPlainName_file)

namespace Ledger

/-- **The ledger stays** where only directories of runs are made and no file of the
directory itself is written.  Runs that are being made do this before they are recorded.
-/
theorem of_changes {written made : Set Location} (h : Ledger state runs fs)
    (changes : Changes written made fs after)
    (hwritten : ∀ name, fs.placeOf state ++ [name] ∉ written)
    (hmade : ∀ name, fs.placeOf state ++ [name] ∈ made → IsRunId name) :
    Ledger state runs after := by
  have apart (name : String) : Disjoint (slot (fs.placeOf state) name) written := by
    rw [Set.disjoint_left]
    rintro location (rfl | rfl)
    · exact hwritten _
    · exact hwritten _
  have unmade {name : String} (long : name.toList.length ≠ 7) :
      fs.placeOf state ++ [name] ∉ made := fun mem =>
    (hmade name mem).ne_of_length long rfl
  refine ⟨h.ids, h.nodup, h.storable, fun run mem => ?_, fun none => ?_, fun some => ?_⟩
  · refine (h.records run mem).of_changes changes (apart _) (unmade ?_)
    simp [(h.ids run mem).length_eq]
  · rw [changes.placeOf, changes.entryAt?_eq (hwritten _) (unmade (by decide))]
    exact h.unlisted none
  · exact (h.listed some).of_changes changes (apart _) (unmade (by decide))

/-- The index of the ledger is read back.  In the form that recording a run asks for. -/
theorem ofEntry (h : Ledger state runs fs) :
    RunIndex.ofEntry (fs.entryAt? (fs.placeOf state ++ ["runs.json"])) = .ok (.ofRuns runs) := by
  by_cases none : runs = []
  · rw [h.unlisted none, none]
    rfl
  · rw [(h.listed none).held, RunIndex.ofEntry, RunIndex.decodeText_ofRuns h.nodup h.storable]
    rfl

/-- **A run of the ledger is read back from its file.**  Any run of the ledger is found,
not only the last. -/
theorem load (h : Ledger state runs fs) (mem : run ∈ runs) :
    Run.load run.id state fs = .ok run :=
  Run.load_of_stored (h.ids run mem) (h.storable run mem) (h.records run mem)

/-- **The index of a ledger with runs is read back from its file.**  Without runs there
is no file to be read, which the ledger says in a field of its own. -/
theorem load_index (h : Ledger state runs fs) (some : runs ≠ []) :
    RunIndex.load state fs = .ok (.ofRuns runs) := by
  rw [RunIndex.load_eq_ofEntry (h.listed some).located, h.ofEntry]

end Ledger

/-! ## Recording a run -/

/-- The file of a run and the record of another touch different locations.  So recording
one run leaves the file of the other, though both write the index. -/
theorem IsRunId.disjoint_slot_recordSlots {other : String} (h : IsRunId id) (h' : IsRunId other)
    (ne : id ≠ other) (place : Location) :
    Disjoint (slot place (id ++ ".json")) (recordSlots place other) := by
  have length := h.length_eq
  have length' := h'.length_eq
  rw [recordSlots, Set.disjoint_union_right]
  refine ⟨disjoint_slot ?_ ?_ ?_, h.disjoint_slot_index place⟩
  · simpa [String.ext_iff] using ne
  · intro same
    simpa [length, length'] using congrArg (fun text => text.toList.length) same
  · intro same
    simpa [length, length'] using congrArg (fun text => text.toList.length) same

namespace Ledger

/-- **A run that has been recorded is in the ledger**, beside the runs with other
identifiers.  The list afterwards is described by its members, and serves both for a new
run and for one that is recorded anew. -/
theorem of_recorded (h : Ledger state runs fs) {next : List Run} (isRunId : IsRunId run.id)
    (storable : run.isStorable = true) (nodup : (next.map (·.id)).Nodup) (mem : run ∈ next)
    (others : ∀ other ∈ next, other = run ∨ other ∈ runs ∧ other.id ≠ run.id)
    (changes : Changes (recordSlots (fs.placeOf state) run.id) ∅ fs after)
    (stored : Stored state (run.id ++ ".json") run.toJson.pretty after)
    (listed : Stored state "runs.json" (RunIndex.ofRuns next).toJson.pretty after) :
    Ledger state next after := by
  refine ⟨fun other hother => ?_, nodup, fun other hother => ?_, fun other hother => ?_,
    fun none => ?_, fun _ => listed⟩
  · rcases others other hother with rfl | ⟨old, _⟩
    · exact isRunId
    · exact h.ids other old
  · rcases others other hother with rfl | ⟨old, _⟩
    · exact storable
    · exact h.storable other old
  · rcases others other hother with rfl | ⟨old, ne⟩
    · exact stored
    · exact (h.records other old).of_changes changes
        ((h.ids other old).disjoint_slot_recordSlots isRunId ne _) (Set.notMem_empty _)
  · simp [none] at mem

/-- **A run that is recorded can be recorded anew**, and takes the place of the old
record.  That it succeeds needs no hypothesis on the disk: the file is there and can be
written, and so can the index. -/
theorem exists_save (h : Ledger state (earlier ++ old :: later) fs) (same : run.id = old.id)
    (storable : run.isStorable = true) :
    ∃ after, (run.save state).on fs = (.ok (), after) ∧
      Changes (recordSlots (fs.placeOf state) run.id) ∅ fs after ∧
      Ledger state (earlier ++ run :: later) after := by
  have mem : old ∈ earlier ++ old :: later := by simp
  have some : earlier ++ old :: later ≠ [] := by simp
  have isRunId : IsRunId run.id := same ▸ h.ids old mem
  have record := h.records old mem
  rw [← same] at record
  have ready := record.isReady isRunId.isPlainName_file
  obtain ⟨after, saved⟩ := Run.exists_save ready run isRunId record.canStore
    (h.listed some).canStore h.ofEntry
  have changes := Run.save_changes ready run isRunId
  obtain ⟨stored, listed⟩ := Run.save_spec ready run isRunId saved (by simp)
  have relisted := (listed _ h.ofEntry).2
  rw [RunIndex.add_ofRuns h.nodup same] at relisted
  rw [saved] at changes
  refine ⟨after, saved, changes, ?_⟩
  have ids : (earlier ++ run :: later).map (·.id) = (earlier ++ old :: later).map (·.id) := by
    simp [same]
  have nodup : ((earlier ++ run :: later).map (·.id)).Nodup := ids ▸ h.nodup
  refine h.of_recorded isRunId storable nodup (by simp) (fun other hother => ?_) changes stored
    relisted
  rcases List.mem_append.mp hother with mem | mem
  · have mem : other ∈ earlier ++ later := List.mem_append_left _ mem
    exact .inr ⟨by simp_all, RunIndex.id_ne_of_nodup nodup mem⟩
  · rcases List.mem_cons.mp mem with rfl | mem
    · exact .inl rfl
    · have mem : other ∈ earlier ++ later := List.mem_append_right _ mem
      exact .inr ⟨by simp_all, RunIndex.id_ne_of_nodup nodup mem⟩

end Ledger

/-! ## Bringing contents back -/

/-- A change that is to be undone: where its file is, and the content that the file had
before.  The record has only the path and the digests; the location and the content are
what proofs know besides. -/
structure Restoration where
  change : FileChange
  location : Location
  before : String

/-- **A change can be undone**: its file is as the run left it, outside the state directory, and the
content from before is kept. -/
structure Restorable (state : Path) (id : String) (item : Restoration) (fs : FileSystem) :
    Prop where
  located : fs.locate item.change.path = .ok item.location
  fileLike : demandsDirectory item.change.path = false
  outside : ¬ fs.placeOf state <+: item.location
  held : ∃ content, fs.entryAt? item.location = some (.file content true) ∧
    contentDigest content = item.change.hashAfter
  plain : IsPlainName item.change.backup
  kept : KeepsBackup state id item.change.backup item.before fs

variable {item : Restoration} {items : List Restoration}

namespace Restorable

/-- A change can still be undone after changes of other files. -/
theorem of_changes {written made : Set Location} (h : Restorable state id item fs)
    (changes : Changes written made fs after) (hlocation : item.location ∉ written)
    (hbackup : fs.placeOf state ++ [id, item.change.backup] ∉ written) :
    Restorable state id item after where
  located := changes.locate h.located
  fileLike := h.fileLike
  outside := by
    rw [changes.placeOf]
    exact h.outside
  held := by
    obtain ⟨content, held, digest⟩ := h.held
    exact ⟨content, changes.entryAt?_eq_some hlocation held, digest⟩
  plain := h.plain
  kept := h.kept.of_changes changes hbackup

/-- The file has not changed since the run.  The digest is compared with the content
that the run left. -/
theorem checkUnchanged (h : Restorable state id item fs) :
    checkUnchanged id fs item.change = .ok () := by
  obtain ⟨content, held, digest⟩ := h.held
  have hstat : fs.stat item.change.path = .ok (item.location, .file content true) :=
    stat_eq_ok_iff.mpr ⟨h.located, held, .inr h.fileLike⟩
  have there : fs.exists? item.change.path = true := exists?_eq_true_iff.mpr ⟨_, _, hstat⟩
  have read : fs.read item.change.path = .ok content := read_eq_ok_iff.mpr ⟨_, _, hstat⟩
  simp [AliasHoist.checkUnchanged, there, fileDigest, read, digest]

/-- Bringing one content back writes one file.  It succeeds since the file is there and
writable, and the backup is a text. -/
theorem exists_restoreBackup (h : Restorable state id item fs) :
    ∃ after, (restoreBackup item.change id state).on fs = (.ok (), after) ∧
      Changes {item.location} ∅ fs after ∧
      after.entryAt? item.location = some (.file (.text item.before) true) := by
  obtain ⟨content, held, _⟩ := h.held
  have hwrite : fs.write item.change.path (.text item.before) =
      .ok (fs.put item.location (.file (.text item.before) true)) :=
    write_eq_ok_iff.mpr ⟨_, h.located, h.fileLike, .inr ⟨content, held⟩, rfl⟩
  obtain ⟨changes, entry, _⟩ := write_changes hwrite
  rw [← eq_placeOf_of_locate h.located] at changes entry
  refine ⟨_, ?_, changes, entry⟩
  rw [on_restoreBackup, h.kept.readText h.plain]
  simp only [hwrite]

end Restorable

/-- So undoing is not refused if all files are as the run left them. -/
theorem checkAllUnchanged_eq_ok (h : ∀ item ∈ items, Restorable state id item fs) :
    checkAllUnchanged id fs (items.map (·.change)) = .ok () := by
  induction items with
  | nil => rfl
  | cons item rest ih =>
      rw [List.map_cons, checkAllUnchanged, (h item List.mem_cons_self).checkUnchanged,
        ih fun item mem => h item (List.mem_cons_of_mem _ mem)]
      rfl

/-- Bringing contents back does not depend on what has been said before. -/
@[simp] theorem isDeaf_restoreAll (id : String) (state : Path) (changes : List FileChange) :
    (restoreAll id state changes).IsDeaf := by
  induction changes with
  | nil => exact .pure ()
  | cons change rest ih =>
      exact (isDeaf_restoreBackup _ _ _).bind fun _ => (Task.isDeaf_print _).bind fun _ => ih

/-- **Contents are brought back one after the other**, in files that are apart.  An
induction on the changes: each step writes one location, and the locations of the others
are different ones. -/
theorem exists_restoreAll (h : ∀ item ∈ items, Restorable state id item fs)
    (distinct : items.Pairwise fun a b => a.location ≠ b.location) :
    ∃ after, (restoreAll id state (items.map (·.change))).on fs = (.ok (), after) ∧
      Changes {location | ∃ item ∈ items, location = item.location} ∅ fs after ∧
      ∀ item ∈ items, after.entryAt? item.location = some (.file (.text item.before) true) := by
  induction items generalizing fs with
  | nil => exact ⟨fs, rfl, .refl fs, by simp⟩
  | cons item rest ih =>
      obtain ⟨middle, hfirst, first, entry⟩ := (h item List.mem_cons_self).exists_restoreBackup
      rw [List.pairwise_cons] at distinct
      have others : ∀ other ∈ rest, Restorable state id other middle := by
        intro other mem
        refine (h other (List.mem_cons_of_mem _ mem)).of_changes first
          (Ne.symm (distinct.1 other mem)) fun same => ?_
        exact (h item List.mem_cons_self).outside (same ▸ List.prefix_append _ _)
      obtain ⟨after, hrest, further, entries⟩ := ih others distinct.2
      refine ⟨after, ?_, ?_, ?_⟩
      · rw [List.map_cons, restoreAll, Task.on_bind_of_ok (fun _ =>
          (Task.isDeaf_print _).bind fun _ => isDeaf_restoreAll _ _ _) hfirst,
          Task.on_bind_of_ok (fun _ => isDeaf_restoreAll _ _ _) (Task.on_print middle _), hrest]
      · refine (first.mono ?_ subset_rfl).trans (further.mono ?_ subset_rfl)
        · rintro location rfl
          exact ⟨item, List.mem_cons_self, rfl⟩
        · rintro location ⟨other, mem, rfl⟩
          exact ⟨other, List.mem_cons_of_mem _ mem, rfl⟩
      · intro other mem
        rcases List.mem_cons.mp mem with rfl | mem
        · refine further.entryAt?_eq_some ?_ entry
          rintro ⟨later, hlater, same⟩
          exact distinct.1 later hlater same
        · exact entries other mem

/-! ## Undoing a run -/

/-- What undoing does once all checks are done depends on files alone.  Nothing before
`undoRun` writes, so this is where a revert changes anything. -/
theorem isDeaf_undoRun (id : String) (state : Path) (run : Run) :
    (undoRun id state run).IsDeaf :=
  (Task.isDeaf_print _).bind fun _ => (isDeaf_restoreAll _ _ _).bind fun _ =>
    (Run.isDeaf_save _ _).bind fun _ => (Task.isDeaf_log _ _ _).bind fun _ => Task.isDeaf_print _

/-- If both of its parts succeed then so does undoing. -/
theorem on_undoRun {middle : FileSystem}
    (restored : (restoreAll id state run.changes).on fs = (.ok (), middle))
    (saved : (run.undone.save state).on middle = (.ok (), after)) :
    (undoRun id state run).on fs = (.ok (), after) := by
  rw [undoRun, Task.on_bind_of_ok ?_ (Task.on_print fs _), Task.on_bind_of_ok ?_ restored,
    Task.on_bind_of_ok ?_ saved, Task.on_bind_of_ok ?_ (Task.on_log after _ _ _), Task.on_print]
  case _ => exact fun _ => Task.isDeaf_print _
  case _ => exact fun _ => (Task.isDeaf_log _ _ _).bind fun _ => Task.isDeaf_print _
  case _ =>
    exact fun _ => (Run.isDeaf_save _ _).bind fun _ => (Task.isDeaf_log _ _ _).bind fun _ =>
      Task.isDeaf_print _
  case _ =>
    exact fun _ => (isDeaf_restoreAll _ _ _).bind fun _ => (Run.isDeaf_save _ _).bind fun _ =>
      (Task.isDeaf_log _ _ _).bind fun _ => Task.isDeaf_print _

/-- Undoing a run is two questions and then `undoRun`. -/
theorem revertRun_eq (id : String) (force : Bool) (state : Path) :
    revertRun id force state =
      (Task.ask (Run.load id state) fun reason => reason) >>= fun run =>
        (Task.ask (checkRevertible run id force) fun reason => reason) >>= fun _ =>
          undoRun id state run :=
  rfl

/-- Undoing a run does not depend on what has been said before. -/
@[simp] theorem isDeaf_revertRun (id : String) (force : Bool) (state : Path) :
    (revertRun id force state).IsDeaf := by
  rw [revertRun_eq]
  exact (Task.isDeaf_ask _ _).bind fun _ => (Task.isDeaf_ask _ _).bind fun _ =>
    isDeaf_undoRun _ _ _

/-- **Undoing a run of the ledger** whose files are as it left them brings their
contents back and marks the run.  The frame names all that it writes: the files of the
run, its record and the index. -/
theorem Ledger.exists_revertRun (h : Ledger state (earlier ++ run :: later) fs)
    (applied : run.status = .applied) (canRevert : run.canRevert = true)
    (hitems : run.changes = items.map (·.change))
    (restorable : ∀ item ∈ items, Restorable state run.id item fs)
    (distinct : items.Pairwise fun a b => a.location ≠ b.location) :
    ∃ after, (revertRun run.id false state).on fs = (.ok (), after) ∧
      Changes ({location | ∃ item ∈ items, location = item.location} ∪
        recordSlots (fs.placeOf state) run.id) ∅ fs after ∧
      (∀ item ∈ items, after.entryAt? item.location = some (.file (.text item.before) true)) ∧
      Ledger state (earlier ++ run.undone :: later) after := by
  have mem : run ∈ earlier ++ run :: later := by simp
  obtain ⟨middle, hrestore, first, entries⟩ := exists_restoreAll restorable distinct
  have ledger : Ledger state (earlier ++ run :: later) middle := by
    refine h.of_changes first ?_ (by simp)
    rintro name ⟨item, hitem, same⟩
    exact (restorable item hitem).outside (same ▸ List.prefix_append _ _)
  have sameId : run.undone.id = run.id := rfl
  obtain ⟨after, hsave, second, marked⟩ := ledger.exists_save sameId (h.storable run mem)
  have loaded : (Task.ask (Run.load run.id state) fun reason => reason).on fs = (.ok run, fs) := by
    rw [Task.on_ask, h.load mem]
    rfl
  have checked : (Task.ask (checkRevertible run run.id false) fun reason => reason).on fs =
      (.ok (), fs) := by
    rw [Task.on_ask, checkRevertible, applied, canRevert, hitems,
      checkAllUnchanged_eq_ok restorable]
    rfl
  refine ⟨after, ?_, ?_, ?_, marked⟩
  · rw [← hitems] at hrestore
    rw [revertRun_eq, Task.on_bind_of_ok ?_ loaded, Task.on_bind_of_ok ?_ checked,
      on_undoRun hrestore hsave]
    case _ => exact fun _ => isDeaf_undoRun _ _ _
    case _ => exact fun _ => (Task.isDeaf_ask _ _).bind fun _ => isDeaf_undoRun _ _ _
  · rw [first.placeOf] at second
    exact (first.mono Set.subset_union_left subset_rfl).trans
      (second.mono Set.subset_union_right subset_rfl)
  · intro item hitem
    refine second.entryAt?_eq_some (fun there => ?_) (entries item hitem)
    rw [first.placeOf] at there
    exact (restorable item hitem).outside (prefix_of_mem_recordSlots there)

end AliasHoist
