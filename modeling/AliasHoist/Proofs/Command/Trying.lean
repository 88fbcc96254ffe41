import AliasHoist.Proofs.Command.Recording
import AliasHoist.Proofs.Command.Undoing

/-!
# Trying to rewrite files

A run keeps the backup of a file and records its change before it writes the file.  So when the write fails,
the change is recorded all the same, and the file keeps its content.  A file without a backup is neither
written nor recorded.

## Main Definitions

* `Restoration.IsTried`: a file is as the attempt to rewrite it has left it;
* `FilesTried`: what has become of the files that a run has tried to rewrite;
* `InPlaceRun.IsRecorded`: a run has been recorded with some changes;
* `LeavesTried`: what a run leaves once it is recorded.

## Main Statements

* `exists_deliver_tried`: trying to rewrite one file;
* `FilesTried.append`, `IsTraceable.exists_filesTried`: more files, and all files of a run;
* `IsTraceable.exists_leavesTried`: what a run leaves, whichever of its writes fail.
-/

namespace AliasHoist

open FileSystem

variable {fs before middle after : FileSystem} {item : Restoration} {written made : Set Location}

/-! ## One file -/

/-- **A file is as the attempt to rewrite it has left it**: it has the digest that was
recorded if it can be written, and otherwise the content from before.  Which of the two
it is was settled before the run, by the permission of the file. -/
inductive Restoration.IsTried (item : Restoration) (before after : FileSystem) : Prop where
  | rewritten {content : Content}
      (free : before.entryAt? item.location = some (.file (.text item.before) true))
      (held : after.entryAt? item.location = some (.file content true))
      (digest : contentDigest content = item.change.hashAfter)
  | locked (locked : before.entryAt? item.location = some (.file (.text item.before) false))
      (held : after.entryAt? item.location = some (.file (.text item.before) false))

namespace Restoration.IsTried

/-- What the attempt on a file has left stays while later files are tried. -/
theorem of_changes (h : item.IsTried before middle) (changes : Changes written made middle after)
    (untouched : item.location ∉ written) : item.IsTried before after := by
  cases h with
  | rewritten free held digest =>
      exact .rewritten free (changes.entryAt?_eq_some untouched held) digest
  | locked locked held => exact .locked locked (changes.entryAt?_eq_some untouched held)

/-- Other files may have changed before, as when their own attempts came first. -/
theorem of_changes_before (h : item.IsTried middle after) (changes : Changes written made before middle)
    (untouched : item.location ∉ written) : item.IsTried before after := by
  have same {content : Content} {writable : Bool}
      (held : middle.entryAt? item.location = some (.file content writable)) :
      before.entryAt? item.location = some (.file content writable) := by
    rw [← fileAt?_eq_some_iff, ← changes.fileAt?_eq untouched]
    exact fileAt?_eq_some_iff.mpr held
  cases h with
  | rewritten free held digest => exact .rewritten (same free) held digest
  | locked locked held => exact .locked (same locked) held

end Restoration.IsTried

namespace Command

variable {recording : Recording} {source : HoistedSource} {tally : FixTally} {run : InPlaceRun}
  {path : Path} {files : List Path} {items others : List Restoration} {changes : List FileChange}

/-! ## Trying to rewrite files -/

/-- The locations that are written for some files: their own and those of their backups.
Backups are counted for locked files too, since they are kept before the write fails. -/
def triedLocations (recording : Recording) (items : List Restoration) (fs : FileSystem) :
    Set Location :=
  {location | ∃ item ∈ items, location = item.location ∨
    location = fs.placeOf recording.state ++ [recording.id, item.change.backup]}

/-- The location of the backup of a file is among those that are written for it.  So the
file is written and its backup kept within one frame. -/
theorem singleton_subset_triedLocations (item : Restoration) :
    {fs.placeOf recording.state ++ [recording.id, item.change.backup]} ⊆
      triedLocations recording [item] fs := by
  rintro location rfl
  exact ⟨item, List.mem_singleton_self _, .inr rfl⟩

/-- **What has become of the files that a run has tried to rewrite.**  It has one field
for what the files hold, one for the backups, and two for everything else. -/
structure FilesTried (recording : Recording) (items : List Restoration)
    (before after : FileSystem) : Prop where
  tried : ∀ item ∈ items, item.IsTried before after
  kept : ∀ item ∈ items,
    KeepsBackup recording.state recording.id item.change.backup item.before after
  changes : Changes (triedLocations recording items before) Set.univ before after
  ready : items ≠ [] → IsReady (recording.state.child recording.id) after

namespace FilesTried

/-- Before the first attempt nothing has been written. -/
theorem nil (changes : Changes ∅ Set.univ before after) : FilesTried recording [] before after where
  tried := by simp
  kept := by simp
  changes := changes.mono (Set.empty_subset _) subset_rfl
  ready := by simp

section

variable (outside : ¬ before.placeOf recording.state <+: item.location)
  (backedUp : Changes {before.placeOf recording.state ++ [recording.id, item.change.backup]} Set.univ
    before middle)
  (kept : KeepsBackup recording.state recording.id item.change.backup item.before middle)
  (ready : IsReady (recording.state.child recording.id) middle)
include outside backedUp kept ready

/-- A locked file stays as it is once its backup is kept.  The attempt is recorded all
the same, with a digest that the file does not have. -/
theorem of_locked
    (locked : before.entryAt? item.location = some (.file (.text item.before) false)) :
    FilesTried recording [item] before middle where
  tried := by
    have apart : item.location ∉
        ({before.placeOf recording.state ++ [recording.id, item.change.backup]} : Set Location) :=
      fun same => outside (same ▸ List.prefix_append _ _)
    simpa using Restoration.IsTried.locked locked (backedUp.entryAt?_eq_some apart locked)
  kept := by simpa using kept
  changes := backedUp.mono (singleton_subset_triedLocations item) subset_rfl
  ready _ := ready

/-- Any other file is written once its backup is kept.  The digest is that of the
content that was written. -/
theorem of_written {content : Content}
    (free : before.entryAt? item.location = some (.file (.text item.before) true))
    (digest : contentDigest content = item.change.hashAfter) :
    FilesTried recording [item] before (middle.put item.location (.file content true)) := by
  have apart : item.location ∉
      ({before.placeOf recording.state ++ [recording.id, item.change.backup]} : Set Location) :=
    fun same => outside (same ▸ List.prefix_append _ _)
  have noDirectory : middle.entryAt? item.location ≠ some .directory := by
    simp [backedUp.entryAt?_eq_some apart free]
  have written := put_file_changes noDirectory content true
  constructor
  · have held := entryAt?_put_self middle (.file content true) (ne_nil_of_entryAt?_ne noDirectory)
    simpa using Restoration.IsTried.rewritten free held digest
  · have still := kept.of_changes written fun same =>
      apart (backedUp.placeOf recording.state ▸ same.symm)
    simpa using still
  · refine (backedUp.mono (singleton_subset_triedLocations item) subset_rfl).trans
      (written.mono ?_ (Set.empty_subset _))
    rintro location rfl
    exact ⟨item, List.mem_singleton_self _, .inl rfl⟩
  · exact fun _ => ready.of_changes written

end

/-- **More files are tried.**  Neither these files nor their backups are among the ones
before.  Files that are apart is what this asks for; `FilesRepeated.append` does
without. -/
theorem append (first : FilesTried recording items before middle)
    (second : FilesTried recording others middle after)
    (apart : ∀ a ∈ items, ∀ b ∈ others,
      a.location ≠ b.location ∧ a.change.backup ≠ b.change.backup)
    (outside : ∀ item ∈ items ++ others, ¬ before.placeOf recording.state <+: item.location) :
    FilesTried recording (items ++ others) before after := by
  have place := first.changes.placeOf recording.state
  constructor
  · intro item mem
    rcases List.mem_append.mp mem with old | new
    · refine (first.tried item old).of_changes second.changes ?_
      rintro ⟨other, hother, same | same⟩
      · exact (apart item old other hother).1 same
      · exact outside item mem (place ▸ same ▸ List.prefix_append _ _)
    · refine (second.tried item new).of_changes_before first.changes ?_
      rintro ⟨other, hother, same | same⟩
      · exact (apart other hother item new).1 same.symm
      · exact outside item mem (same ▸ List.prefix_append _ _)
  · intro item mem
    rcases List.mem_append.mp mem with old | new
    · refine (first.kept item old).of_changes second.changes ?_
      rintro ⟨other, hother, same | same⟩
      · exact outside other (List.mem_append_right _ hother) (place ▸ same ▸ List.prefix_append _ _)
      · exact (apart item old other hother).2 (by simpa using same)
    · exact second.kept item new
  · refine (first.changes.mono ?_ subset_rfl).trans (second.changes.mono ?_ subset_rfl)
    · rintro location ⟨item, mem, there⟩
      exact ⟨item, List.mem_append_left _ mem, there⟩
    · rintro location ⟨item, mem, there⟩
      exact ⟨item, List.mem_append_right _ mem, place ▸ there⟩
  · intro something
    by_cases none : others = []
    · refine (first.ready ?_).of_changes second.changes
      simpa [none] using something
    · exact second.ready none

end FilesTried

variable (tally) in
/-- **Trying to rewrite a file.**  Without a backup nothing is recorded, and at most directories are made.
With a backup the change is recorded, and the file is written if it can be.  Either way the directory of
the run is opened first, and no other directory is made after that. -/
theorem exists_deliver_tried (isRunId : IsRunId run.id) {writable : Bool}
    (found : fs.stat path = .ok (fs.placeOf path, .file (.text source.before) writable))
    (outside : ¬ fs.placeOf run.recording.state <+: fs.placeOf path) :
    let item : Restoration := ⟨changeOf (pathOf (fs.placeOf path)) source, fs.placeOf path, source.before⟩
    ∃ items result after, (deliver run.plan path source tally).on fs = (.ok result, after) ∧
      (items = [] ∨ items = [item]) ∧ result.changes = tally.changes ++ items.map (·.change) ∧
      FilesTried run.recording items fs after ∧
      Changes (triedLocations run.recording items fs) ∅
        (opened run.recording.state run.recording.id fs) after := by
  intro item
  have inPlace : run.plan.delivery = .inPlace run.recording := rfl
  have held : fs.entryAt? item.location = some (.file (.text item.before) writable) :=
    (stat_eq_ok_iff.mp found).2.1
  have made := opened_changes run.recording.state run.recording.id fs
  rw [on_deliver_inPlace inPlace, on_backUp found]
  rcases hbackup : (saveBackup (pathOf (fs.placeOf path)) source.before run.recording.id
    run.recording.state).on fs with ⟨outcome, middle⟩
  cases outcome with
  | error reason =>
      obtain rfl := eq_opened_of_saveBackup_error hbackup
      exact ⟨[], _, _, rfl, .inl rfl, by simp [FixTally.fail], .nil made, .refl _⟩
  | ok backup =>
      obtain ⟨rfl, opened, keeping, kept⟩ := keepsBackup_of_saveBackup isRunId.isPlainName hbackup
      have named : backupName (pathOf (fs.placeOf path)) = item.change.backup := rfl
      rw [named] at keeping kept
      have ready := opened.of_changes keeping
      have backedUp := (made.mono (Set.empty_subset _) subset_rfl).trans
        (keeping.mono subset_rfl (Set.empty_subset _))
      have still := backedUp.stat found fun same => outside (same ▸ List.prefix_append _ _)
      have keeping := keeping.mono (singleton_subset_triedLocations item) subset_rfl
      dsimp only
      rw [write_of_stat still]
      cases writable with
      | false =>
          have tried : FilesTried run.recording [item] fs middle :=
            .of_locked outside backedUp kept ready held
          exact ⟨[item], _, middle, rfl, .inr rfl, rfl, tried, keeping⟩
      | true =>
          have digest : contentDigest (.text source.after) = item.change.hashAfter := rfl
          have tried : FilesTried run.recording [item] fs
              (middle.put item.location (.file (.text source.after) true)) :=
            .of_written outside backedUp kept ready held digest
          have noDirectory : middle.entryAt? item.location ≠ some .directory := by
            simp [(stat_eq_ok_iff.mp still).2.1, item]
          have written := put_file_changes noDirectory (.text source.after) true
          refine ⟨[item], _, _, rfl, .inr rfl, rfl, tried, keeping.trans (written.mono ?_ subset_rfl)⟩
          rintro location rfl
          exact ⟨item, List.mem_singleton_self _, .inl rfl⟩

variable (tally) in
/-- **Fixing a file whose write may fail.**  There is one attempt at most; a file
without fixes and one that cannot be backed up have none. -/
theorem exists_fixFile_tried (isRunId : IsRunId run.id)
    (outside : ¬ fs.placeOf run.recording.state <+: fs.placeOf path) :
    ∃ items result after, (fixFile run.plan tally path).on fs = (.ok result, after) ∧
      items.Sublist ([path].filterMap (run.restoration? fs)) ∧
      result.changes = tally.changes ++ items.map (·.change) ∧
      FilesTried run.recording items fs after := by
  rcases on_fixFile_cases run.plan tally path fs with
    ⟨source, hoists, -, h⟩ | ⟨-, -, h⟩ | ⟨-, -, h⟩
  · obtain ⟨location, writable, read⟩ := readText_eq_ok_iff.mp (readText_of_hoisted hoists)
    obtain rfl := eq_placeOf_of_stat read
    obtain ⟨items, result, after, delivered, which, recorded, tried, -⟩ :=
      exists_deliver_tried (tally.count run.plan.format source) isRunId read outside
    refine ⟨items, result, after, h.trans delivered, ?_, recorded, tried⟩
    simp only [List.filterMap_cons, InPlaceRun.restoration?, hoists, Option.map_some,
      List.filterMap_nil]
    rcases which with rfl | rfl
    · exact List.nil_sublist _
    · exact List.Sublist.refl _
  · exact ⟨[], tally, fs, h, List.nil_sublist _, by simp, .nil (.refl fs)⟩
  · exact ⟨[], tally.fail, fs, h, List.nil_sublist _, by simp [FixTally.fail], .nil (.refl fs)⟩

/-- One more file at the end of a run is fixed in what the others have left. -/
theorem on_fixEach_concat {plan : FixPlan} {between : FixTally}
    (h : (fixEach plan tally files).on fs = (.ok between, middle)) :
    (fixEach plan tally (files ++ [path])).on fs = (fixFile plan between path).on middle := by
  induction files generalizing tally fs with
  | nil =>
      obtain ⟨rfl, rfl⟩ : tally = between ∧ fs = middle := by simpa [fixEach] using h
      rw [List.nil_append, fixEach, Task.on_bind _ fun _ => isDeaf_fixEach _ _ _]
      rcases (fixFile plan tally path).on fs with ⟨_ | _, _⟩ <;> rfl
  | cons first rest ih =>
      obtain ⟨next, after, hfirst, hrest⟩ :=
        (Task.on_bind_eq_ok_iff fun _ => isDeaf_fixEach _ _ _).mp h
      rw [List.cons_append, fixEach, Task.on_bind_of_ok (fun _ => isDeaf_fixEach _ _ _) hfirst]
      exact ih hrest

namespace IsTraceable

variable (h : IsTraceable run before)
include h

/-- The files of a run and their backups are in different places.  Both are needed,
because the locations of files and of backups are all written. -/
theorem pairwise_restorations : (run.restorations before).Pairwise fun a b =>
    a.location ≠ b.location ∧ a.change.backup ≠ b.change.backup := by
  have backups := h.nodup_backups
  rw [h.changes_eq, List.map_map, List.Nodup, List.pairwise_map] at backups
  exact h.distinct.and backups

/-- A file is not among those before it.  So its text is still the one from before the
run when its turn comes. -/
theorem placeOf_not_mem_triedLocations (inRun : files ++ [path] <+: run.files)
    (sublist : items.Sublist (files.filterMap (run.restoration? before))) :
    before.placeOf path ∉ triedLocations run.recording items before := by
  have mem : path ∈ run.files := inRun.subset (by simp)
  have distinct := h.apart.distinct.sublist inRun.sublist
  rw [List.pairwise_append] at distinct
  rintro ⟨item, hitem, same | same⟩
  · obtain ⟨other, hother, found⟩ := List.mem_filterMap.mp (sublist.subset hitem)
    obtain ⟨_, _, rfl⟩ := Option.map_eq_some_iff.mp found
    have hother' : other ∈ run.files := inRun.subset (List.mem_append_left _ hother)
    refine distinct.2.2 other hother path (by simp) ?_
    rw [h.apart.canonical mem, h.apart.canonical hother', same]
  · exact h.apart.outside path mem (same ▸ List.prefix_append _ _)

/-- **Trying to rewrite all files of a run**, one after the other.  An induction from
the end, as each file is fixed with the tally of those before it. -/
theorem exists_filesTried (inRun : files <+: run.files) :
    ∃ items tally middle, (fixEach run.plan {} files).on before = (.ok tally, middle) ∧
      items.Sublist (files.filterMap (run.restoration? before)) ∧
      tally.changes = items.map (·.change) ∧ FilesTried run.recording items before middle := by
  induction files using List.reverseRecOn with
  | nil => exact ⟨[], {}, before, rfl, List.nil_sublist _, rfl, .nil (.refl before)⟩
  | append_singleton rest path ih =>
      have mem : path ∈ run.files := inRun.subset (by simp)
      obtain ⟨items, tally, middle, run', sublist, recorded, tried⟩ :=
        ih ((List.prefix_append _ _).trans inRun)
      -- the file is still as it was
      have untouched := h.placeOf_not_mem_triedLocations inRun sublist
      have places := tried.changes.placeOf
      obtain ⟨entry, found⟩ := h.apart.stat mem
      have same : [path].filterMap (run.restoration? middle) =
          [path].filterMap (run.restoration? before) := by
        simp only [List.filterMap_cons, List.filterMap_nil, InPlaceRun.restoration?, places,
          hoisted?_congr (tried.changes.readText found untouched)]
      have outside : ¬ middle.placeOf run.recording.state <+: middle.placeOf path := by
        rw [places, places]
        exact h.apart.outside path mem
      obtain ⟨others, result, after, step, sublist', recorded', tried'⟩ :=
        exists_fixFile_tried tally h.isRunId outside
      rw [same] at sublist'
      have all : (items ++ others).Sublist ((rest ++ [path]).filterMap (run.restoration? before)) := by
        rw [List.filterMap_append]
        exact sublist.append sublist'
      have inAll := all.trans (inRun.sublist.filterMap _)
      refine ⟨items ++ others, result, after, (on_fixEach_concat run').trans step, all, ?_,
        tried.append tried' ?_ ?_⟩
      · rw [recorded', recorded, List.map_append]
      · exact (List.pairwise_append.mp (h.pairwise_restorations.sublist inAll)).2.2
      · exact fun item hitem => h.outside_of_mem_restorations (inAll.subset hitem)

end IsTraceable

/-! ## What is recorded -/

/-- **A run is recorded** with some changes: it tries its files, has changes to record,
and succeeds in recording them.  It says nothing about single files, whose writes may
have failed. -/
structure InPlaceRun.IsRecorded (run : InPlaceRun) (changes : List FileChange) (before : FileSystem) :
    Prop where
  something : changes ≠ []
  saves : ∃ tally middle, (fixEach run.plan {} run.files).on before = (.ok tally, middle) ∧
    tally.changes = changes ∧
    (((run.recording.run changes).save run.recording.state).on middle).1 = .ok ()

/-- Recording such a run is the last thing that happens to its files. -/
theorem InPlaceRun.IsRecorded.exists_saved (h : run.IsRecorded changes before) :
    ∃ tally middle, (fixEach run.plan {} run.files).on before = (.ok tally, middle) ∧
      tally.changes = changes ∧
      ((run.recording.run changes).save run.recording.state).on middle =
        (.ok (), run.perform before) := by
  obtain ⟨tally, middle, tries, rfl, saved⟩ := h.saves
  have inPlace : run.plan.delivery = .inPlace run.recording := rfl
  rcases hsave : ((run.recording.run tally.changes).save run.recording.state).on middle
    with ⟨outcome, after⟩
  obtain rfl : outcome = .ok () := by simpa [hsave] using saved
  have concluded : (conclude run.plan.delivery tally).on middle = (.ok (), after) := by
    rw [inPlace, on_conclude_inPlace h.something, hsave]
    rfl
  have performed : run.perform before = after := by
    rw [InPlaceRun.perform, on_fixFiles (by simp [inPlace]), tries]
    dsimp only
    rw [on_settleRun, concluded]
  exact ⟨tally, middle, tries, rfl, by rw [hsave, performed]⟩

/-- **What a run leaves once it is recorded**: the files that it has tried, their
backups, its record and an index.  It is the counterpart of `Leaves` for runs whose
writes may fail. -/
structure LeavesTried (run : InPlaceRun) (items : List Restoration) (before after : FileSystem) :
    Prop where
  sublist : items.Sublist (run.restorations before)
  tried : ∀ item ∈ items, item.IsTried before after
  kept : ∀ item ∈ items,
    KeepsBackup run.recording.state run.id item.change.backup item.before after
  changes : Changes Set.univ Set.univ before after
  own : Stored run.recording.state (run.id ++ ".json")
    (run.recording.run (items.map (·.change))).toJson.pretty after
  listed : ∃ listing index, Stored run.recording.state "runs.json" listing after ∧
    Json.decodeText (RunIndex.decode .text) listing = .ok index

namespace IsTraceable

variable (h : IsTraceable run before)
include h

/-- What is recorded can be read back.  Fewer changes do not make the record harder to
store. -/
theorem isStorable_of_sublist (sublist : items.Sublist (run.restorations before)) :
    (run.recording.run (items.map (·.change))).isStorable = true := by
  have counts : ∀ item ∈ items, item.change.fixesApplied < 2 ^ 64 := by
    intro item mem
    refine h.counts _ ?_
    rw [h.changes_eq]
    exact List.mem_map_of_mem (sublist.subset mem)
  simpa [Run.isStorable, Recording.run, h.time] using counts

/-- **What a run whose writes may fail leaves**, once it is recorded.  Nothing is
assumed about the writes of the files, only that the record was written. -/
theorem exists_leavesTried (recorded : run.IsRecorded changes before) :
    ∃ items, changes = items.map (·.change) ∧ LeavesTried run items before (run.perform before) := by
  obtain ⟨tally, middle, tries, rfl, saved⟩ := recorded.exists_saved
  obtain ⟨items, found, between, tries', sublist, same, tried⟩ :=
    h.exists_filesTried (List.prefix_rfl)
  obtain ⟨rfl, rfl⟩ : found = tally ∧ between = middle := by simpa [tries] using tries'.symm
  rw [same] at saved ⊢
  have something : items ≠ [] := by
    rintro rfl
    exact recorded.something same
  have isRunId : IsRunId (run.recording.run (items.map (·.change))).id := h.isRunId
  have ready : IsReady run.recording.state between :=
    (tried.ready something).of_child h.isRunId.isPlainName
  have elsewhere := Run.save_changes ready (run.recording.run (items.map (·.change))) isRunId
  obtain ⟨own, listed⟩ := Run.save_spec ready _ isRunId saved (by simp)
  rw [saved] at elsewhere
  have places := tried.changes.placeOf run.recording.state
  refine ⟨items, rfl, sublist, fun item mem => ?_, fun item mem => ?_, ?_, own, ?_⟩
  · refine (tried.tried item mem).of_changes elsewhere fun there => ?_
    refine h.outside_of_mem_restorations (sublist.subset mem) ?_
    exact places ▸ prefix_of_mem_recordSlots there
  · refine (tried.kept item mem).of_changes elsewhere fun there => ?_
    simp [recordSlots, slot] at there
  · exact (tried.changes.mono (Set.subset_univ _) subset_rfl).trans
      (elsewhere.mono (Set.subset_univ _) (Set.empty_subset _))
  · -- the index was read when the run was recorded
    cases hindex : RunIndex.ofEntry
        (between.entryAt? (between.placeOf run.recording.state ++ ["runs.json"])) with
    | error reason =>
        obtain ⟨failed, -⟩ := Run.save_of_unread ready isRunId saved (by simp) hindex
        simp at failed
    | ok index =>
        have stored := (listed index hindex).2
        have located := elsewhere.locate_eq_ok_iff.mp stored.located
        rw [elsewhere.placeOf] at located
        have loaded : RunIndex.load run.recording.state between = .ok index :=
          (RunIndex.load_eq_ofEntry located).trans hindex
        have storable := (RunIndex.isStorable_of_load loaded).add (h.isStorable_of_sublist sublist)
        exact ⟨_, _, stored, storable.decodeText_pretty⟩

end IsTraceable

end Command

end AliasHoist
