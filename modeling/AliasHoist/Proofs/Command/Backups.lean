import AliasHoist.Proofs.Command.Repeating
import AliasHoist.Proofs.Runs.InStep

/-!
# Backups keep what files were

Before a run rewrites a file it keeps the content in a backup.  From then on commands come and go: other
runs, runs that are undone, runs that are forgotten.  As long as a run is listed, its backups are what they
were when it ended, provided that no run has ever been given a file of the state directory.  Nothing in the
commands sees to that: a state directory among the files to fix is walked like any other, and backups have
the names of sources.

What backups are when a run ends is another matter.  They hold what the files were when the run began,
except where the run has fixed a file more than once: then the later content has taken the place of the
earlier one.

## Main Definitions

* `Beginning`: a run together with the files that it began with;
* `HoldsBeginning`: the backups of a run hold what its files were when it began;
* `KeepsContents`: what the backups of a listed run hold in any case;
* `IsBackedUp`, `BackedUp`: the backups of one run, and of all that are listed;
* `BackupStep`: what can happen to backups.

## Main Statements

* `BackedUp.of_runsThrough`: one more run;
* `BackedUp.of_step`, `BackedUp.of_steps`: backups are kept whatever happens;
* `backups_keep_contents`: so every backup holds what was kept in it last, which is what its file was when
  the run began unless the file was fixed twice;
* `backups_overwritten`: a file that is fixed twice, and a backup that is fixed itself.

## What is load-bearing

Backups are in the directory of their run and records are not, so what a step leaves alone is said once,
in `outsideBackups`, for all the runs that are left.
-/

namespace AliasHoist.Command

open FileSystem

variable {state : Path} {run : InPlaceRun} {fs before middle after : FileSystem}
  {id name text : String} {changes : List FileChange} {change : FileChange}
  {items : List Restoration} {item : Restoration} {record old : Run} {runs next : List Run}
  {touched : Set Location}

/-! ## One backup -/

/-- **A backup in the directory of a run.**  Unlike `KeepsBackup` this says what is
there and not how the path leads there, so it needs nothing but its own locations to
stay.  It is the invariant for a single backup over all that commands do. -/
structure HoldsBackup (state : Path) (id name text : String) (fs : FileSystem) : Prop where
  plain : IsPlainName name
  directory : fs.entryAt? (fs.placeOf state ++ [id]) = some .directory
  holds : HoldsText (state.child id) name text fs

namespace HoldsBackup

/-- What a run has kept is there. -/
theorem of_keepsBackup (h : KeepsBackup state id name text fs) (isRunId : IsPlainName id)
    (plain : IsPlainName name) : HoldsBackup state id name text fs := by
  obtain ⟨leads, followable, short, -⟩ := (locate_child_iff plain).mp h.located
  have place : fs.placeOf (state.child id) = fs.placeOf state ++ [id] := placeOf_child state isRunId
  refine ⟨plain, ?_, followable, short, ?_⟩
  · rw [← place]
    exact leads.2
  · rw [place, List.append_assoc]
    exact h.held

/-- Nothing that is kept in the directory of a run is lost.  Directories of runs are
removed as a whole, and those of other runs are disjoint from this one. -/
theorem of_keeps (h : HoldsBackup state id name text before) (isRunId : IsPlainName id)
    (keeps : Keeps touched before after)
    (untouched : ∀ rest, before.placeOf state ++ id :: rest ∉ touched) :
    HoldsBackup state id name text after where
  plain := h.plain
  directory := by
    rw [keeps.placeOf, keeps.entryAt?_eq _ (untouched [])]
    exact h.directory
  holds := by
    refine h.holds.of_keeps keeps ?_
    rw [placeOf_child state isRunId, List.append_assoc]
    exact untouched [name]

/-- The backup is read back.  An identifier is short and plain, so the path to the
backup can be followed if that to the state directory can. -/
theorem readText (h : HoldsBackup state id name text fs) (isRunId : IsRunId id)
    (ready : IsReady state fs) : fs.readText ((state.child id).child name) = .ok text := by
  have plain := isRunId.isPlainName
  have followable : isFollowable (state.child id) = true := by
    refine (isFollowable_of_child h.plain h.holds.followable).resolve_left ?_
    rw [Path.child_text state plain]
    split <;> simp [plain.ne_empty]
  have located : fs.locate (state.child id) = .ok (fs.placeOf state ++ [id]) :=
    (locate_child_iff plain).mpr ⟨ready.leads, followable, isRunId.utf8ByteSize_le, rfl⟩
  have leads : fs.Leads (state.child id) := by
    rw [Leads, placeOf_child state plain]
    exact ⟨(locate_eq_ok_iff_follow.mp located).2, h.directory⟩
  exact h.holds.readText h.plain ⟨leads, .inr followable⟩

end HoldsBackup

/-! ## The backups of a run -/

/-- A run together with the files that it began with.  A record has digests only; with
the files from before, what was kept can be spoken of. -/
structure Beginning where
  run : InPlaceRun
  files : FileSystem

/-- **The backups of a run hold what its files were when it began**, of which it has the
digests.  The backups are read in the directory that the record names. -/
def HoldsBeginning (state : Path) (begun : Beginning) (record : Run) (fs : FileSystem) : Prop :=
  ∀ change ∈ record.changes, ∃ text, begun.files.readText change.path = .ok text ∧
    change.hashBefore = contentDigest (.text text) ∧
    fs.readText ((state.child record.id).child change.backup) = .ok text

/-- **What the backups of a listed run hold.**  The first change of a file has the
digest of what the file was when the run began; the last change with a backup has the
digest of what the backup holds.  Where these are the same change the backup holds what
the file was.  A file that is fixed once has one change, which is both. -/
structure KeepsContents (state : Path) (begun : Beginning) (record : Run) (fs : FileSystem) :
    Prop where
  id_eq : record.id = begun.run.id
  /-- The changes are the ones that the run has recorded. -/
  recorded : begun.run.IsRecorded record.changes begun.files
  first : ∀ path change, record.changes.find? (·.path == path) = some change →
    ∃ text, begun.files.readText path = .ok text ∧ change.hashBefore = contentDigest (.text text)
  last : ∀ name change, record.changes.reverse.find? (·.backup == name) = some change →
    ∃ text, fs.readText ((state.child record.id).child name) = .ok text ∧
      change.hashBefore = contentDigest (.text text)
  /-- Unless two changes share a backup, every backup holds what its file was. -/
  once : (record.changes.map (·.backup)).Nodup → HoldsBeginning state begun record fs
  /-- Backups have the recorded digests just when changes that share one have the same. -/
  digests_iff : (∀ change ∈ record.changes, ∃ text,
      fs.readText ((state.child record.id).child change.backup) = .ok text ∧
        change.hashBefore = contentDigest (.text text)) ↔
    ∀ a ∈ record.changes, ∀ b ∈ record.changes, a.backup = b.backup → a.hashBefore = b.hashBefore

/-- **The attempts of a run**, told from the files that it began with and from its
record.  Nothing in it depends on the present files, so it is true for good once the run
is over. -/
structure IsTraced (begun : Beginning) (record : Run) (items : List Restoration) : Prop where
  id_eq : record.id = begun.run.id
  recorded : begun.run.IsRecorded record.changes begun.files
  changes_eq : record.changes = items.map (·.change)
  digest : ∀ item ∈ items, item.change.hashBefore = contentDigest (.text item.before)
  named : ∀ item ∈ items, item.change.backup = backupName item.change.path
  first : ∀ path item, items.find? (·.change.path == path) = some item →
    begun.files.readText path = .ok item.before

/-- **A listed run still has the backups that it made.**  Beside what is known of the
record it has two fields about files: where the sources are, and what the backups hold.
-/
structure IsBackedUp (state : Path) (begun : Beginning) (items : List Restoration) (record : Run)
    (fs : FileSystem) : Prop extends IsTraced begun record items where
  outside : ∀ change ∈ record.changes, ¬ fs.placeOf state <+: fs.placeOf change.path
  held : ∀ name item, lastNamed items name = some item →
    HoldsBackup state record.id name item.before fs

variable {begun : Beginning} {past : List Beginning}

/-- **A run has its backups as soon as it is done.**  Recording it comes after the
backups and touches none of them. -/
theorem RunsThrough.isBackedUp (h : RunsThrough state runs run changes items before middle)
    (rewrites : RewritesOutside state run changes before) :
    IsBackedUp state ⟨run, before⟩ items (run.recording.run changes) (run.perform before) where
  id_eq := rfl
  recorded := h.isRecorded
  changes_eq := h.changes_eq
  digest := by
    intro item mem
    obtain ⟨path, -, source, rfl⟩ := h.repeated.attempts item mem
    rfl
  named := by
    intro item mem
    obtain ⟨path, -, source, rfl⟩ := h.repeated.attempts item mem
    rfl
  first _ _ first := rewrites.readText_of_first h.repeated first
  outside := by
    intro change mem
    rw [h.placeOf_perform, h.placeOf_perform]
    exact h.outside_source rewrites mem
  held := by
    intro name item last
    obtain ⟨mem, rfl⟩ := backup_of_lastNamed last
    have kept := (h.repeated.kept _ item last).of_changes h.recorded (by
      rw [rewrites.state_eq, h.repeated.changes_univ.placeOf]
      simp [recordSlots, slot])
    rw [rewrites.state_eq] at kept
    obtain ⟨path, -, source, rfl⟩ := h.repeated.attempts item mem
    exact .of_keepsBackup kept rewrites.isRunId.isPlainName (isPlainName_backupName _)

namespace IsBackedUp

/-- Whether a run is undone or not, it has its backups while nothing in its directory is
touched.  The status of the record is left open, which undoing changes. -/
theorem of_keeps (h : IsBackedUp state begun items old before) (isRunId : IsRunId old.id)
    (keeps : Keeps touched before after)
    (untouched : ∀ rest, before.placeOf state ++ old.id :: rest ∉ touched)
    (same : record.id = old.id) (changes : record.changes = old.changes) :
    IsBackedUp state begun items record after where
  id_eq := same.trans h.id_eq
  recorded := changes ▸ h.recorded
  changes_eq := changes.trans h.changes_eq
  digest := h.digest
  named := h.named
  first := h.first
  outside := by
    intro change mem
    rw [keeps.placeOf, keeps.placeOf]
    exact h.outside change (changes ▸ mem)
  held := by
    intro name item last
    rw [same]
    exact (h.held name item last).of_keeps isRunId.isPlainName keeps untouched

variable (h : IsBackedUp state begun items record fs) (isRunId : IsRunId record.id)
  (ready : IsReady state fs)
include h

/-- Every attempt is followed by a last one with the same backup.  So every change of
the run has a backup, though not necessarily one of its own. -/
theorem exists_last (mem : change ∈ record.changes) :
    ∃ item, lastNamed items change.backup = some item := by
  rw [h.changes_eq] at mem
  obtain ⟨item, hitem, rfl⟩ := List.mem_map.mp mem
  refine Option.isSome_iff_exists.mp (List.find?_isSome.mpr ⟨item, ?_, by simp⟩)
  exact List.mem_reverse.mpr hitem

/-- Where no two changes share a backup, each of them is the first of its file and the
last with its backup.  The digest and the backup then speak of the same attempt. -/
theorem holdsBeginning (isRunId : IsRunId record.id) (ready : IsReady state fs)
    (once : (record.changes.map (·.backup)).Nodup) : HoldsBeginning state begun record fs := by
  intro change mem
  obtain ⟨last, hlast⟩ := h.exists_last mem
  have read := (h.held _ last hlast).readText isRunId ready
  obtain ⟨lastMem, lastNamed⟩ := backup_of_lastNamed hlast
  rw [h.changes_eq] at mem
  obtain ⟨item, hitem, rfl⟩ := List.mem_map.mp mem
  rw [h.changes_eq, List.map_map] at once
  obtain rfl := List.inj_on_of_nodup_map once lastMem hitem lastNamed
  obtain ⟨first, hfirst⟩ := Option.isSome_iff_exists.mp
    (List.find?_isSome.mpr ⟨last, hitem, by simp⟩ :
      (items.find? (·.change.path == last.change.path)).isSome)
  have found := h.first _ first hfirst
  have path : first.change.path = last.change.path := by simpa using List.find?_some hfirst
  have backup : first.change.backup = last.change.backup := by
    rw [h.named first (List.mem_of_find?_eq_some hfirst), path, h.named last hitem]
  obtain rfl := List.inj_on_of_nodup_map once (List.mem_of_find?_eq_some hfirst) hitem backup
  exact ⟨first.before, found, h.digest first hitem, read⟩

/-- **What was kept is read back.**  This is where the invariant is given up for what
can be read from outside. -/
theorem keepsContents (isRunId : IsRunId record.id) (ready : IsReady state fs) :
    KeepsContents state begun record fs where
  id_eq := h.id_eq
  recorded := h.recorded
  first := by
    intro path change first
    rw [h.changes_eq, List.find?_map, Option.map_eq_some_iff] at first
    obtain ⟨item, first, rfl⟩ := first
    exact ⟨item.before, h.first path item first, h.digest item (List.mem_of_find?_eq_some first)⟩
  last := by
    intro name change last
    rw [h.changes_eq, ← List.map_reverse, List.find?_map, Option.map_eq_some_iff] at last
    obtain ⟨item, last, rfl⟩ := last
    exact ⟨item.before, (h.held name item last).readText isRunId ready,
      h.digest item (backup_of_lastNamed last).1⟩
  once := h.holdsBeginning isRunId ready
  digests_iff := by
    refine ⟨fun reads a ha b hb same => ?_, fun alike change mem => ?_⟩
    · obtain ⟨text, read, digest⟩ := reads a ha
      obtain ⟨text', read', digest'⟩ := reads b hb
      rw [same] at read
      obtain rfl := Except.ok.inj (read.symm.trans read')
      exact digest.trans digest'.symm
    · obtain ⟨item, last⟩ := h.exists_last mem
      obtain ⟨hitem, backup⟩ := backup_of_lastNamed last
      refine ⟨item.before, (h.held _ item last).readText isRunId ready, ?_⟩
      rw [← h.digest item hitem]
      refine alike change mem item.change ?_ backup.symm
      rw [h.changes_eq]
      exact List.mem_map_of_mem hitem

end IsBackedUp

/-! ## The backups of all runs -/

/-- **All listed runs have their backups**, and they are in step.  Every run that is
listed is one that has been performed, but not the other way round: some have been
forgotten. -/
structure BackedUp (state : Path) (past : List Beginning) (runs : List Run) (fs : FileSystem) : Prop
    extends KeptInStep state runs fs where
  backups : ∀ record ∈ runs, ∃ begun ∈ past, ∃ items, IsBackedUp state begun items record fs

namespace BackedUp

/-- Runs of the same identifiers and changes have the same backups, if nothing in their
directories is touched.  Each step below is an instance of it: what is listed afterwards
was listed before, and the frame has no backup in it. -/
theorem of_keeps (h : BackedUp state past runs before) (inStep : KeptInStep state next after)
    (known : ∀ record ∈ next, ∃ old ∈ runs, record.id = old.id ∧ record.changes = old.changes)
    (keeps : Keeps (outsideBackups (before.placeOf state) next) before after) :
    BackedUp state past next after := by
  refine ⟨inStep, fun record mem => ?_⟩
  obtain ⟨old, hold, same, changes⟩ := known record mem
  obtain ⟨begun, hbegun, items, backed⟩ := h.backups old hold
  refine ⟨begun, hbegun, items,
    backed.of_keeps (h.keepable old hold).isRunId keeps ?_ same changes⟩
  rw [← same]
  exact not_mem_outsideBackups mem

/-- No source of a listed run is in the state directory.  Undoing the run therefore
writes no backup. -/
theorem outside (h : BackedUp state past runs fs) (mem : record ∈ runs)
    (hchange : change ∈ record.changes) : ¬ fs.placeOf state <+: fs.placeOf change.path := by
  obtain ⟨begun, -, items, backed⟩ := h.backups record mem
  exact backed.outside change hchange

/-- A run that is listed has begun.  So an identifier that no run has had is not listed.
-/
theorem exists_begun (h : BackedUp state past runs fs) (mem : record ∈ runs) :
    ∃ begun ∈ past, record.id = begun.run.id := by
  obtain ⟨begun, hbegun, items, backed⟩ := h.backups record mem
  exact ⟨begun, hbegun, backed.id_eq⟩

/-- A new identifier is none of the listed ones, so the directory of a new run is none
of theirs. -/
theorem fresh (h : BackedUp state past runs fs) (new : ∀ begun ∈ past, begun.run.id ≠ id) :
    id ∉ runs.map (·.id) := by
  intro known
  obtain ⟨record, mem, rfl⟩ := List.mem_map.mp known
  obtain ⟨begun, hbegun, same⟩ := h.exists_begun mem
  exact new begun hbegun same.symm

/-- **One more run**, once its directory has been made.  The files that it begins with
are those before its directory was made. -/
theorem of_runsThrough (h : BackedUp state past runs (opened state run.id before))
    (rewrites : RewritesOutside state run changes before) (fresh : run.id ∉ runs.map (·.id)) :
    BackedUp state (⟨run, before⟩ :: past) (runs ++ [run.recording.run changes])
      (run.perform before) := by
  obtain ⟨items, middle, through⟩ := rewrites.exists_runsThrough h.toKeptInStep
  have ids : ∀ record ∈ runs, IsRunId record.id := fun record mem => (h.keepable record mem).isRunId
  have keeps := through.keeps_others rewrites ids fresh
  refine ⟨through.inStep_perform rewrites fresh, fun record mem => ?_⟩
  rcases List.mem_append.mp mem with mem | mem
  · obtain ⟨begun, hbegun, items, backed⟩ := h.backups record mem
    refine ⟨begun, List.mem_cons_of_mem _ hbegun, items,
      backed.of_keeps (ids record mem) keeps ?_ rfl rfl⟩
    rw [(opened_changes state run.id before).placeOf]
    exact not_mem_outsideBackups mem
  · obtain rfl := List.mem_singleton.mp mem
    exact ⟨_, List.mem_cons_self, items, through.isBackedUp rewrites⟩

/-- Making the directory of a new run leaves all backups.  No listed run has it as its
own directory. -/
theorem of_opened (h : BackedUp state past runs fs) (isRunId : IsRunId id)
    (fresh : id ∉ runs.map (·.id)) : BackedUp state past runs (opened state id fs) := by
  have changes := h.ready.opened_changes isRunId.isPlainName
  have keeps := Keeps.of_changes changes
  have inStep : KeptInStep state runs (opened state id fs) := by
    refine h.toKeptInStep.of_keeps keeps (h.ready.of_changes changes) fun name there => ?_
    rw [Set.empty_union] at there
    exact isRunId.ne_json name (by simpa using there)
  refine h.of_keeps inStep (fun record mem => ⟨record, mem, rfl, rfl⟩) (keeps.mono ?_)
  rw [Set.empty_union]
  rintro location rfl
  exact mem_outsideBackups_of_ne [] fun record mem same =>
    fresh (List.mem_map.mpr ⟨record, mem, same⟩)

end BackedUp

/-! ## Steps -/

/-- The locations that are neither those of records nor in the directory of a run that
was made.  The directories of runs that were forgotten count as well, so an identifier
is not used again for something else. -/
def besideRuns (state : Path) (past : List Beginning) (fs : FileSystem) : Set Location :=
  {location | (∀ begun ∈ past, ¬ fs.placeOf state ++ [begun.run.id] <+: location) ∧
    ∀ name, location ≠ fs.placeOf state ++ [name ++ ".json"]}

/-- **What can happen to backups.**  The runs that were made so far are kept, with the
files that each of them began with.  Undoing and forgetting may fail in any way but at
the records, and the files of a new run may be any that are outside the state directory.
-/
inductive BackupStep (state : Path) :
    List Beginning × FileSystem → List Beginning × FileSystem → Prop where
  /-- Files outside the state directory are fixed in place, and the run gets a new identifier. -/
  | fix {past : List Beginning} {fs : FileSystem} {changes : List FileChange} (run : InPlaceRun)
      (rewrites : RewritesOutside state run changes fs)
      (fresh : ∀ begun ∈ past, begun.run.id ≠ run.id) :
      BackupStep state (past, fs) (⟨run, fs⟩ :: past, run.perform fs)
  /-- Any run is undone, or not, under an identifier that does not lead out of the state directory. -/
  | revert {past : List Beginning} {fs : FileSystem} (id : String) (force : Bool)
      (within : NamesRecord state id fs)
      (writes : WritesRecords ((revertRun id force state).on fs).1) :
      BackupStep state (past, fs) (past, ((revertRun id force state).on fs).2)
  /-- Old runs are forgotten. -/
  | clean {past : List Beginning} {fs : FileSystem} (keepDays : Nat) (now : Timestamp)
      (writes : WritesRecords ((cleanRuns keepDays now state).on fs).1) :
      BackupStep state (past, fs) (past, ((cleanRuns keepDays now state).on fs).2)
  /-- The latest runs are listed. -/
  | history {past : List Beginning} {fs : FileSystem} (limit : Nat) :
      BackupStep state (past, fs) (past, ((showHistory limit state).on fs).2)
  /-- Something else happens, as when files are checked, fixed without being rewritten, or edited by hand,
  but not to the records or in the directories of runs. -/
  | elsewhere {past : List Beginning} {fs after : FileSystem} (ready : IsReady state after)
      (keeps : Keeps (besideRuns state past fs) fs after) :
      BackupStep state (past, fs) (past, after)

/-- A run that has nothing to record is something that happens elsewhere: at most it
leaves an empty directory.  So runs without changes need no constructor of their own. -/
theorem BackupStep.of_nothing {past : List Beginning} (state_eq : run.recording.state = state)
    (ready : IsReady state fs) (isRunId : IsRunId run.id)
    (opens : (fs.makeDirectories (state.child run.id)).2 = .ok ())
    (outside : ∀ path ∈ run.files, ¬ fs.placeOf state <+: fs.placeOf path)
    (nothing : ∀ tally middle, (fixEach run.plan {} run.files).on fs = (.ok tally, middle) →
      tally.changes = [])
    (fresh : ∀ begun ∈ past, begun.run.id ≠ run.id) :
    BackupStep state (past, fs) (past, run.perform fs) := by
  obtain rfl := state_eq
  have inPlace : run.plan.delivery = .inPlace run.recording := rfl
  obtain ⟨items, tally, middle, each, changes_eq, repeated⟩ :=
    exists_filesRepeated isRunId opens outside
  have empty := nothing tally middle each
  obtain rfl : items = [] := by simpa [empty] using changes_eq
  have performed : run.perform fs = middle := by
    rw [InPlaceRun.perform, on_fixFiles (by simp [inPlace]), each]
    dsimp only
    rw [on_settleRun, on_conclude_of_nil empty]
  have changes : Changes ∅ {fs.placeOf run.recording.state ++ [run.id]} fs middle := by
    rcases repeated.changes with ⟨-, rfl⟩ | written
    · exact .refl _
    · have none : triedLocations run.recording [] fs = ∅ := by
        rw [triedLocations]
        simp
      rw [none] at written
      exact (ready.opened_changes isRunId.isPlainName).trans
        (written.mono subset_rfl (Set.empty_subset _))
  rw [performed]
  refine .elsewhere (ready.of_changes changes) ((Keeps.of_changes changes).mono ?_)
  rw [Set.empty_union]
  rintro location rfl
  refine ⟨fun begun mem below => ?_, fun name same => ?_⟩
  · exact fresh begun mem (by simpa [List.prefix_append_right_inj] using below)
  · exact isRunId.ne_json name (by simpa using same.symm)

namespace BackedUp

variable {past' : List Beginning}

/-- **A step keeps all backups** of the runs that it leaves.  One case for each kind of
step; only the first one makes new backups. -/
theorem of_step (h : BackedUp state past runs fs)
    (step : BackupStep state (past, fs) (past', after)) :
    ∃ next, BackedUp state past' next after := by
  cases step with
  | fix run rewrites fresh =>
      have new := h.fresh fresh
      exact ⟨_, (h.of_opened rewrites.isRunId new).of_runsThrough rewrites new⟩
  | revert id force within writes =>
      obtain ⟨next, inStep, ids, undone⟩ := h.toKeptInStep.of_revertRun within writes
      refine ⟨next, h.of_keeps inStep (fun record mem => ?_) ?_⟩
      · rcases undone record mem with same | ⟨old, hold, rfl⟩
        · exact ⟨record, same, rfl, rfl⟩
        · exact ⟨old, hold, rfl, rfl⟩
      · refine (h.toKeptInStep.revertRun_keeps within (fun _ mem _ => h.outside mem) force).mono ?_
        exact outsideBackups_of_ids (ids ▸ List.Subset.refl _)
  | clean keepDays now writes =>
      obtain ⟨kept, inStep, sublist, keeps⟩ := h.toKeptInStep.of_cleanRuns writes
      refine ⟨kept, h.of_keeps inStep (fun record mem => ?_) keeps⟩
      exact ⟨record, sublist.subset mem, rfl, rfl⟩
  | history limit =>
      rw [h.on_showHistory]
      exact ⟨runs, h⟩
  | elsewhere ready keeps =>
      have inStep : KeptInStep state runs after :=
        h.toKeptInStep.of_keeps keeps ready fun name beside => beside.2 name rfl
      refine ⟨runs, h.of_keeps inStep (fun record mem => ⟨record, mem, rfl, rfl⟩) (keeps.mono ?_)⟩
      intro location beside record mem
      obtain ⟨begun, hbegun, same⟩ := h.exists_begun mem
      rw [same]
      exact beside.1 begun hbegun

/-- **Backups are kept whatever happens.**  An induction along the steps, with the
listed runs given anew after each. -/
theorem of_steps {start finish : List Beginning × FileSystem} (h : BackedUp state start.1 runs start.2)
    (steps : Relation.ReflTransGen (BackupStep state) start finish) :
    ∃ next, BackedUp state finish.1 next finish.2 := by
  induction steps with
  | refl => exact ⟨runs, h⟩
  | tail _ step ih =>
      obtain ⟨middle, inner⟩ := ih
      exact inner.of_step step

end BackedUp

/-! ## What backups hold -/

/-- The state directory of the first run has no records.  The directory of the run is
all there is, and no record is there. -/
theorem StartsEmpty.inStep {rest : List InPlaceRun} (empty : StartsEmpty state (run :: rest) fs)
    (direct : fs.IsDirect state) (isRunId : IsRunId run.id)
    (opens : (fs.makeDirectories (state.child run.id)).2 = .ok ()) :
    KeptInStep state [] (opened state run.id fs) := by
  have opening := opened_changes state run.id fs
  have absent (name : String) :
      (opened state run.id fs).entryAt? ((opened state run.id fs).placeOf state ++ [name ++ ".json"]) =
        none := by
    rw [opening.placeOf]
    refine empty run (by simp) _ (List.prefix_append _ _) (by simp) fun same => ?_
    exact isRunId.ne_json name (by simpa using same)
  exact {
    ready := (isReady_opened isRunId.isPlainName opens).of_child isRunId.isPlainName
    direct := direct.of_workingDirectory_eq opening.workingDirectory_eq
    keepable := by simp
    nodup := by simp
    records := by simp
    others := fun name _ _ => absent name
    index := .inl ⟨rfl, absent "runs"⟩ }

/-- **Backups keep what files were.**  After a first run, in a state directory that started empty, files
outside it may be fixed in place, each of them as often as one likes, runs undone, forgotten and listed, and
anything may happen that leaves records and the directories of runs alone.  The index can be read then, and
of every run that it lists the backups hold what was kept in them last; so they hold what its files were
when it began, unless it has fixed one of them more than once. -/
theorem backups_keep_contents (state : Path) (first : InPlaceRun) (changes : List FileChange)
    (before : FileSystem) (now : List Beginning × FileSystem)
    (rewrites : RewritesOutside state first changes before)
    (direct : before.IsDirect state) (empty : StartsEmpty state [first] before)
    (steps : Relation.ReflTransGen (BackupStep state)
      ([⟨first, before⟩], first.perform before) now) :
    ∃ index, RunIndex.load state now.2 = .ok index ∧
      ∀ entry ∈ index.runs, entry.1 = entry.2.id ∧
        ∃ begun ∈ now.1, KeepsContents state begun entry.2 now.2 := by
  have blank : BackedUp state [] [] (opened state first.id before) :=
    ⟨empty.inStep direct rewrites.isRunId rewrites.opens, by simp⟩
  obtain ⟨runs, backed⟩ := (blank.of_runsThrough rewrites (by simp)).of_steps steps
  refine ⟨.ofRuns runs, backed.load_index, fun entry mem => ?_⟩
  obtain ⟨record, hrecord, rfl⟩ := List.mem_map.mp mem
  obtain ⟨begun, hbegun, items, held⟩ := backed.backups record hrecord
  exact ⟨rfl, begun, hbegun,
    held.keepsContents (backed.keepable record hrecord).isRunId backed.ready⟩

end AliasHoist.Command

namespace AliasHoist.Specimen

open Command FileSystem

theorem isDirect_files : files.IsDirect { text := "/s" } := by
  intro front name rest same below
  have place : files.placeOf { text := "/s" } = ["s"] := by decide
  have names : pathNames { text := "/s" } = ["s"] := by decide
  have origin : files.origin { text := "/s" } = [] := by decide
  rw [names] at same
  obtain ⟨rfl, -, -⟩ : front = [] ∧ name = "s" ∧ rest = [] := by
    cases front <;> simp_all
  rw [place, origin] at below
  exact absurd below (by decide)

theorem rewritesOutside_inPlaceRun :
    RewritesOutside { text := "/s" } inPlaceRun (inPlaceRun.changes files) files :=
  isUndoable_inPlaceRun.rewritesOutside (congrArg Prod.snd makeDirectories_files)

theorem rewritesOutside_secondRun :
    RewritesOutside { text := "/s" } secondRun (secondRun.changes afterFirst) afterFirst :=
  isUndoable_secondRun.rewritesOutside (congrArg Prod.snd makeDirectories_afterFirst)

end AliasHoist.Specimen

namespace AliasHoist.Command

open FileSystem Specimen

/-- Two runs, of which the second comes after the first has rewritten the specimen. -/
theorem backups_keep_contents_specimen :
    ∃ index, RunIndex.load { text := "/s" } (secondRun.perform afterFirst) = .ok index ∧
      ∀ entry ∈ index.runs, entry.1 = entry.2.id ∧
        ∃ begun ∈ [⟨secondRun, afterFirst⟩, ⟨inPlaceRun, files⟩],
          KeepsContents { text := "/s" } begun entry.2 (secondRun.perform afterFirst) := by
  have fresh : ∀ begun ∈ [(⟨inPlaceRun, files⟩ : Beginning)], begun.run.id ≠ secondRun.id := by
    intro begun mem
    rw [List.mem_singleton.mp mem]
    decide
  have step : BackupStep { text := "/s" } ([⟨inPlaceRun, files⟩], afterFirst)
      ([⟨secondRun, afterFirst⟩, ⟨inPlaceRun, files⟩], secondRun.perform afterFirst) :=
    .fix secondRun rewritesOutside_secondRun fresh
  exact backups_keep_contents { text := "/s" } inPlaceRun (inPlaceRun.changes files) files
    ([⟨secondRun, afterFirst⟩, ⟨inPlaceRun, files⟩], secondRun.perform afterFirst)
    rewritesOutside_inPlaceRun isDirect_files (startsEmpty []) (.single step)

end AliasHoist.Command

namespace AliasHoist.Specimen

open Command FileSystem

/-! ## A run on a backup -/

/-- The name of the backup of the specimen. -/
def keptName : String := "b21cef36cafcd87871bdb2a019e947fbff14cb47b88a3de17b8cf504214dd5bc.ts"

/-- The path of the backup of the specimen. -/
def keptPath : Path :=
  { text := "/s/0a1b2c3/b21cef36cafcd87871bdb2a019e947fbff14cb47b88a3de17b8cf504214dd5bc.ts" }

/-- A second run that is given the backup which the first has made.  The walk over a
project would give it the same file, as the state directory can be inside. -/
def strayRun : InPlaceRun := { secondRun with files := [keptPath] }

/-- The name of the backup is computed here, once. -/
theorem backupName_absolute : backupName absolute = keptName := by
  have extension : absolute.extension? = some "ts" := by decide
  obtain ⟨digest, -, -⟩ := contentDigest_files
  rw [backupName, extension, absolute, digest]
  decide

theorem extension?_keptPath : keptPath.extension? = some "ts" := by decide +kernel

theorem dialect?_keptPath : keptPath.dialect? = some .typeScript := by
  rw [Path.dialect?, extension?_keptPath]
  rfl

theorem keptPath_eq : (({ text := "/s" } : Path).child "0a1b2c3").child keptName = keptPath := by
  decide

theorem demandsDirectory_keptPath : demandsDirectory keptPath = false := by
  rw [← keptPath_eq, ← backupName_absolute]
  exact demandsDirectory_child _ (isPlainName_backupName _)

theorem pathOf_kept : pathOf ["s", "0a1b2c3", keptName] = keptPath := by decide

theorem keepsBackup_afterFirst :
    KeepsBackup { text := "/s" } "0a1b2c3" keptName source afterFirst := by
  have canonical : pathOf (files.placeOf path) = absolute := by decide
  have mem : ⟨changeOf (pathOf (files.placeOf path)) hoistedSource, files.placeOf path,
      hoistedSource.before⟩ ∈ inPlaceRun.restorations files :=
    mem_restorations.mpr ⟨path, by simp [inPlaceRun], hoistedSource, hoisted?_path, rfl⟩
  have kept := (isUndoable_inPlaceRun.restorable_perform mem).kept
  rw [canonical] at kept
  rw [← backupName_absolute]
  exact kept

/-- After the first run, the path of the backup names the backup. -/
theorem stat_kept_afterFirst :
    afterFirst.stat keptPath = .ok (["s", "0a1b2c3", keptName], .file (.text source) true) := by
  have place : afterFirst.placeOf { text := "/s" } = ["s"] := by
    rw [changes_afterFirst.placeOf]
    decide
  obtain ⟨located, held⟩ := keepsBackup_afterFirst
  rw [place] at located held
  rw [keptPath_eq] at located
  exact stat_eq_ok_iff.mpr ⟨located, held, .inr demandsDirectory_keptPath⟩

/-- The files with the backup of the backup. -/
def strayBackedUp : FileSystem :=
  secondMade.put ["s", "4d5e6f7", backupName keptPath] (.file (.text source) true)

/-- The files once the backup has been rewritten. -/
def strayRewritten : FileSystem :=
  strayBackedUp.put ["s", "0a1b2c3", keptName] (.file (.text hoisted) true)

theorem strayBackedUp_changes :
    Changes {["s", "4d5e6f7", backupName keptPath]} ∅ secondMade strayBackedUp :=
  put_file_changes (by simp [entryAt?_secondMade]) _ _

theorem stat_kept_strayBackedUp :
    strayBackedUp.stat keptPath = .ok (["s", "0a1b2c3", keptName], .file (.text source) true) :=
  strayBackedUp_changes.stat (secondMade_changes.stat stat_kept_afterFirst (Set.notMem_empty _))
    (by simp)

theorem strayRewritten_changes :
    Changes {["s", "0a1b2c3", keptName]} ∅ strayBackedUp strayRewritten :=
  put_file_changes (by simp [(stat_eq_ok_iff.mp stat_kept_strayBackedUp).2.1]) _ _

/-- The second run treats it like any source: it is backed up and rewritten. -/
theorem on_rewriteFile_kept :
    (rewriteFile strayRun.recording strayRun.format keptPath hoistedSource).on afterFirst =
      (.ok (changeOf keptPath hoistedSource), strayRewritten) :=
  on_rewriteFile_of_free stat_kept_afterFirst pathOf_kept makeDirectories_afterFirst leads_secondMade
    (by decide) (by decide) extension?_keptPath placeOf_secondMade (.inl (entryAt?_secondMade _))
    (by simp)

/-- What the stray run does before it is recorded. -/
theorem changes_strayRewritten :
    Changes {["s", "4d5e6f7", backupName keptPath], ["s", "0a1b2c3", keptName]} {["s", "4d5e6f7"]}
      afterFirst strayRewritten :=
  ((secondMade_changes.mono (by simp) subset_rfl).trans
    (strayBackedUp_changes.mono (by simp) (by simp))).trans
    (strayRewritten_changes.mono (by simp) (by simp))

/-- After it has rewritten the backup, the stray run touches no more than records.
Those are not in the directory of the first run. -/
theorem changes_strayRun :
    Changes (recordSlots ["s"] "4d5e6f7") ∅ strayRewritten (strayRun.perform afterFirst) := by
  have inPlace : strayRun.plan.delivery = .inPlace strayRun.recording := rfl
  have hoists : hoisted? strayRun.plan afterFirst keptPath = some hoistedSource :=
    hoisted?_eq dialect?_keptPath (readText_eq_ok_iff.mpr ⟨_, _, stat_kept_afterFirst⟩)
  have step := on_fixFile_of_hoisted {} hoists
  rw [on_deliver_of_rewriteFile inPlace on_rewriteFile_kept] at step
  have each : (fixEach strayRun.plan {} strayRun.files).on afterFirst =
      (.ok _, strayRewritten) :=
    Task.on_bind_of_ok (isDeaf_fixEach strayRun.plan · []) step
  have ready : IsReady strayRun.recording.state strayRewritten := by
    have record := leaves_inPlaceRun.ledger.records (inPlaceRun.record files) (by simp)
    exact (record.isReady isUndoable_inPlaceRun.isRunId.isPlainName_file).of_changes
      changes_strayRewritten
  have place : strayRewritten.placeOf strayRun.recording.state = ["s"] := by
    rw [changes_strayRewritten.placeOf, changes_afterFirst.placeOf]
    decide
  have changes := Run.save_changes ready
    (strayRun.recording.run [changeOf keptPath hoistedSource]) isRunId_secondRun
  rw [place] at changes
  have performed : strayRun.perform afterFirst =
      (((strayRun.recording.run [changeOf keptPath hoistedSource]).save
        strayRun.recording.state).on strayRewritten).2 := by
    rw [InPlaceRun.perform, on_fixFiles (by simp [inPlace]), each]
    dsimp only
    rw [on_settleRun, inPlace, on_conclude_inPlace (by simp [FixTally.record])]
    dsimp only [FixTally.record, FixTally.count, List.nil_append]
    rcases ((strayRun.recording.run [changeOf keptPath hoistedSource]).save
      strayRun.recording.state).on strayRewritten with ⟨_ | _, _⟩ <;> rfl
  rw [performed]
  exact changes

/-- The first run is still recorded after that.  So its record still promises a backup
that holds what the file was. -/
theorem stored_strayRun : Stored { text := "/s" } (inPlaceRun.id ++ ".json")
    (inPlaceRun.record files).toJson.pretty (strayRun.perform afterFirst) := by
  have isRunId := isUndoable_inPlaceRun.isRunId
  have place : afterFirst.placeOf { text := "/s" } = ["s"] := by
    rw [changes_afterFirst.placeOf]
    decide
  have record : Stored { text := "/s" } (inPlaceRun.id ++ ".json")
      (inPlaceRun.record files).toJson.pretty afterFirst :=
    leaves_inPlaceRun.ledger.records (inPlaceRun.record files) (by simp)
  have untouched : Stored { text := "/s" } (inPlaceRun.id ++ ".json")
      (inPlaceRun.record files).toJson.pretty strayRewritten := by
    refine record.of_changes changes_strayRewritten ?_ ?_
    · rw [place, Set.disjoint_left]
      rintro location (rfl | rfl) <;> simp
    · rw [place]
      have long : inPlaceRun.id ++ ".json" ++ ".tmp" ≠ "4d5e6f7" :=
        isRunId_secondRun.ne_tmp (inPlaceRun.id ++ ".json")
      simpa using long
  refine untouched.of_changes changes_strayRun ?_ (Set.notMem_empty _)
  rw [changes_strayRewritten.placeOf, place]
  exact isRunId.disjoint_slot_recordSlots isRunId_secondRun (by decide) _

/-- But the backup has been fixed like a source. -/
theorem readText_kept_strayRun :
    (strayRun.perform afterFirst).readText keptPath = .ok hoisted := by
  have located := locate_of_stat stat_kept_strayBackedUp
  have rewritten : strayRewritten.stat keptPath =
      .ok (["s", "0a1b2c3", keptName], .file (.text hoisted) true) :=
    stat_eq_ok_iff.mpr ⟨strayRewritten_changes.locate located, entryAt?_put_self _ _ (by simp),
      .inr demandsDirectory_keptPath⟩
  refine readText_eq_ok_iff.mpr ⟨_, _, changes_strayRun.stat rewritten ?_⟩
  simp [recordSlots, slot]

end AliasHoist.Specimen

namespace AliasHoist.Command

open FileSystem Specimen

/-- **Backups that do not hold what files were.**  A file that is given to a run of one pass under two
names is fixed twice, and its backup holds what the first fix has made of it.  And a run that is given a
backup rewrites it: the run that made the backup is still recorded, and what its file was is gone. -/
theorem backups_overwritten :
    (RewritesOutside { text := "/s" } twiceRun twiceChanges layeredFiles ∧
      ¬ HoldsBeginning { text := "/s" } ⟨twiceRun, layeredFiles⟩
        (twiceRun.recording.run twiceChanges) (twiceRun.perform layeredFiles)) ∧
    Run.load inPlaceRun.id { text := "/s" } (strayRun.perform afterFirst) =
        .ok (inPlaceRun.record files) ∧
      ¬ HoldsBeginning { text := "/s" } ⟨inPlaceRun, files⟩ (inPlaceRun.record files)
        (strayRun.perform afterFirst) := by
  refine ⟨⟨rewritesOutside_twiceRun, fun holds => ?_⟩, ?_, fun holds => ?_⟩
  · -- both changes are of one file, but they have different digests
    have first : changeOf absolute layeredHoist ∈ twiceChanges := by simp [twiceChanges]
    have second : changeOf absolute outerHoist ∈ twiceChanges := by simp [twiceChanges]
    obtain ⟨text, read, digest, -⟩ := holds _ first
    obtain ⟨text', read', digest', -⟩ := holds _ second
    obtain rfl := Except.ok.inj (read.symm.trans read')
    exact digests_twiceRun (digest.trans digest'.symm)
  · have isRunId : IsRunId (inPlaceRun.record files).id := isUndoable_inPlaceRun.isRunId
    have storable := isUndoable_inPlaceRun.isStorable_record
    have stored := stored_strayRun
    rw [← InPlaceRun.record_id inPlaceRun files] at stored ⊢
    -- the record is not evaluated
    generalize inPlaceRun.record files = record at isRunId storable stored ⊢
    exact Run.load_of_stored isRunId storable stored
  · have mem : changeOf absolute hoistedSource ∈ inPlaceRun.changes files := by
      rw [changes_inPlaceRun]
      exact List.mem_singleton_self _
    obtain ⟨text, read, -, now⟩ := holds _ mem
    have original : files.readText absolute = .ok source := by decide
    obtain rfl := Except.ok.inj (read.symm.trans original)
    have rewritten := readText_kept_strayRun
    rw [← keptPath_eq, ← backupName_absolute] at rewritten
    exact absurd (Except.ok.inj (now.symm.trans rewritten)) (by decide)

end AliasHoist.Command
