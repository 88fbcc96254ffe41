import AliasHoist.Proofs.Command.Fixing
import AliasHoist.Proofs.Runs.Reverting
import Mathlib.Data.Set.Function

/-!
# Undoing runs in reverse order

Runs that fix files in place can follow each other, on the same files or on others.  Undoing them from
the last to the first brings every file back to what it was before the first run, and leaves all of them
marked as undone.

## Main Definitions

* `InPlaceRun`: a run that fixes files in place, with `perform` and `record`;
* `IsTraceable`: what has to hold when a run begins for its files to be told from its record;
* `IsUndoable`: what has to hold when a run begins for it to be undone later;
* `Performed`: runs one after another, each of them undoable when its turn comes;
* `revertAll`: undoing some runs, one after the other;
* `territory`: the locations in the state directory that belong to some runs.

## Main Statements

* `IsTraceable.distinct`, `IsTraceable.nodup_backups`: the files and backups of a run are different ones;
* `IsUndoable.leaves`: what one run leaves to be undone;
* `IsUndoable.exists_undone`: undoing a run after all later ones have been undone;
* `Performed.exists_undone`: undoing runs that follow others;
* `runs_undone_in_reverse`: undoing all runs.

## What is load-bearing

A run is undone in the files that the later runs have left once they are undone themselves.  These differ
from the files right after the run in the territory of the later runs only (`Changes`), so the contents
that the run wrote are still there and its backups are still kept.
-/

namespace AliasHoist.Command

open FileSystem

/-! ## Runs -/

/-- **A run that fixes files in place.**  It is all that the command line and the
configuration decide about a run, put together. -/
structure InPlaceRun where
  parse : Parser
  config : Config
  format : FixFormat
  summary : Bool
  recording : Recording
  files : List Path

namespace InPlaceRun

variable (run : InPlaceRun) (fs : FileSystem)

/-- The identifier of a run. -/
def id : String := run.recording.id

/-- How a run fixes files. -/
def plan : FixPlan where
  parse := run.parse
  config := run.config
  format := run.format
  summary := run.summary
  delivery := .inPlace run.recording

/-- **The files after a run**, whether or not some of them could not be fixed.  A run
that fails has still done what it did to the other files. -/
def perform : FileSystem := ((fixFiles run.plan run.files).on fs).2

/-- The changes that a run makes to its files.  They are computed from the files before
the run; that the run records just these is proved below. -/
def changes : List FileChange := run.files.filterMap (changeIn? run.plan fs)

/-- The record of a run.  It does not depend on the outcome, so that later runs can
speak of it. -/
def record : Run := run.recording.run (run.changes fs)

@[simp] theorem record_id : (run.record fs).id = run.id := rfl

/-- The change of a file with what is needed to undo it, if the file is rewritten.  The
path in the change is the canonical one, and so is the location. -/
def restoration? (path : Path) : Option Restoration :=
  (hoisted? run.plan fs path).map fun source =>
    { change := changeOf (pathOf (fs.placeOf path)) source
      location := fs.placeOf path
      before := source.before }

/-- The changes of a run with what is needed to undo them. -/
def restorations : List Restoration := run.files.filterMap (run.restoration? fs)

end InPlaceRun

/-- **The files of a run can be told from its record**: its paths resolve to different
files outside the state directory, and its backups get different names.  Its writes may
fail.  It is the part of `IsUndoable` that does not depend on the writes. -/
structure IsTraceable (run : InPlaceRun) (fs : FileSystem) : Prop where
  isRunId : IsRunId run.id
  /-- The time of the run is one of the calendar. -/
  time : run.recording.time.isWritable = true
  apart : AreApart run.recording.state run.files fs
  /-- The canonical form of a path names the same as the path. -/
  resolves : ∀ path ∈ run.files, ∀ absolute, fs.canonical path = .ok absolute →
    fs.stat absolute = fs.stat path
  /-- Fixes are counted in 64 bits. -/
  counts : ∀ change ∈ run.changes fs, change.fixesApplied < 2 ^ 64
  /-- No two canonical paths have the same digest. -/
  digests : Set.InjOn (fun absolute : Path => contentDigest (.text absolute.text))
    {absolute | ∃ path ∈ run.files, fs.canonical path = .ok absolute}

/-- **A run can be undone later**: its paths resolve to different files outside the
state directory, it rewrites at least one of them, no write fails, and its backups get
different names.  Each part excludes a way in which a run overwrites what it would need
later: the state directory, one file under two names, or one name for two backups. -/
structure IsUndoable (state : Path) (run : InPlaceRun) (fs : FileSystem) : Prop where
  state_eq : run.recording.state = state
  isRunId : IsRunId run.id
  /-- The time of the run is one of the calendar. -/
  time : run.recording.time.isWritable = true
  apart : AreApart state run.files fs
  /-- The canonical form of a path names the same as the path. -/
  resolves : ∀ path ∈ run.files, ∀ absolute, fs.canonical path = .ok absolute →
    fs.stat absolute = fs.stat path
  rewrites : run.changes fs ≠ []
  writes : NoWriteFails run.plan run.recording run.files {} fs
  /-- Fixes are counted in 64 bits. -/
  counts : ∀ change ∈ run.changes fs, change.fixesApplied < 2 ^ 64
  /-- No two canonical paths have the same digest. -/
  digests : Set.InjOn (fun absolute : Path => contentDigest (.text absolute.text))
    {absolute | ∃ path ∈ run.files, fs.canonical path = .ok absolute}

/-- **Runs one after another**, each of them undoable when its turn comes.  The
hypotheses on a run are about the files that the runs before it have left. -/
inductive Performed (state : Path) : List InPlaceRun → FileSystem → FileSystem → Prop where
  | nil (fs : FileSystem) : Performed state [] fs fs
  | cons {run : InPlaceRun} {rest : List InPlaceRun} {fs after : FileSystem}
      (undoable : IsUndoable state run fs) (later : Performed state rest (run.perform fs) after) :
      Performed state (run :: rest) fs after

/-- **Undoes some runs**, one after the other.  It stops at the first that cannot be
undone.  It is unforced, so a file that is not as its run left it would stop it. -/
def revertAll (state : Path) : List String → Task RunError Unit
  | [] => pure ()
  | id :: rest => do
      revertRun id false state
      revertAll state rest

/-- The locations in the state directory that belong to some runs.  Runs with different
identifiers only share the index, which is in everybody's territory. -/
def territory (place : Location) (ids : List String) : Set Location :=
  {location | ∃ id ∈ ids, location ∈ recordSlots place id ∨ ∃ name, location = place ++ [id, name]}

/-- The directories of some runs.  They are made when a run begins, and stay when it is
undone. -/
def directories (place : Location) (ids : List String) : Set Location :=
  {location | ∃ id ∈ ids, location = place ++ [id]}

variable {state : Path} {run : InPlaceRun} {runs rest : List InPlaceRun} {ids : List String}
  {fs middle after : FileSystem} {path : Path} {item : Restoration} {earlier later : List Run}

/-! ## What one run leaves -/

/-- The name of a backup starts with the digest of its path.  The extension comes after
that, so digests can be got back from names. -/
theorem take_backupName (path : Path) :
    (backupName path).toList.take 64 = (contentDigest (.text path.text)).toList := by
  have length := length_contentDigest (.text path.text)
  rw [backupName]
  cases path.extension? with
  | none => exact List.take_of_length_le length.le
  | some ext =>
      simp only [String.toList_append, List.append_assoc]
      exact List.take_left' length

/-- Backups of one name are backups of paths with one digest. -/
theorem contentDigest_eq_of_backupName_eq {a b : Path} (h : backupName a = backupName b) :
    contentDigest (.text a.text) = contentDigest (.text b.text) := by
  rw [← String.toList_inj, ← take_backupName, h, take_backupName]

/-- What there is to undo is one item for each file with a fixed source. -/
theorem mem_restorations : item ∈ run.restorations fs ↔ ∃ path ∈ run.files, ∃ source,
    hoisted? run.plan fs path = some source ∧
      item = ⟨changeOf (pathOf (fs.placeOf path)) source, fs.placeOf path, source.before⟩ := by
  simp only [InPlaceRun.restorations, List.mem_filterMap, InPlaceRun.restoration?,
    Option.map_eq_some_iff, eq_comm (b := item)]

namespace IsTraceable

variable (h : IsTraceable run fs)
include h

/-- The change of a file and its restoration are there together. -/
theorem changeIn?_eq (mem : path ∈ run.files) :
    changeIn? run.plan fs path = (run.restoration? fs path).map (·.change) := by
  rw [changeIn?, h.apart.canonical mem, InPlaceRun.restoration?]
  cases hoisted? run.plan fs path <;> rfl

/-- The changes of a run are those of its restorations. -/
theorem changes_eq : run.changes fs = (run.restorations fs).map (·.change) := by
  rw [InPlaceRun.changes, InPlaceRun.restorations, List.map_filterMap]
  exact List.filterMap_congr fun path mem => h.changeIn?_eq mem

/-- The files of a run are in different places.  The paths may be spelled in any way;
what differs is their canonical form. -/
theorem distinct : (run.restorations fs).Pairwise fun a b => a.location ≠ b.location := by
  rw [InPlaceRun.restorations, List.pairwise_filterMap]
  refine h.apart.distinct.imp_of_mem fun {a b} ha hb ne item hitem other hother same => ?_
  obtain ⟨_, _, rfl⟩ := Option.map_eq_some_iff.mp hitem
  obtain ⟨_, _, rfl⟩ := Option.map_eq_some_iff.mp hother
  rw [h.apart.canonical ha, h.apart.canonical hb] at ne
  exact ne (congrArg (Except.ok ∘ pathOf) same)

/-- No two backups of a run have the same name.  That digests of different paths differ
is a hypothesis on the run, since it cannot be proved. -/
theorem nodup_backups : ((run.changes fs).map (·.backup)).Nodup := by
  rw [h.changes_eq, List.Nodup, List.pairwise_map, List.pairwise_map, InPlaceRun.restorations,
    List.pairwise_filterMap]
  refine h.apart.distinct.imp_of_mem fun {a b} ha hb ne item hitem other hother same => ?_
  obtain ⟨_, _, rfl⟩ := Option.map_eq_some_iff.mp hitem
  obtain ⟨_, _, rfl⟩ := Option.map_eq_some_iff.mp hother
  simp only [changeOf] at same
  have digests := contentDigest_eq_of_backupName_eq same
  have canonical := h.digests ⟨a, ha, h.apart.canonical ha⟩ ⟨b, hb, h.apart.canonical hb⟩ digests
  rw [h.apart.canonical ha, h.apart.canonical hb, canonical] at ne
  exact ne rfl

/-- The record of such a run can be stored. -/
theorem isStorable_record : (run.record fs).isStorable = true := by
  simpa [Run.isStorable, InPlaceRun.record, Recording.run, h.time] using h.counts

/-- The path in the change of a file leads to the file.  Whether the file can be written
is left open here. -/
theorem stat_of_mem_restorations (mem : item ∈ run.restorations fs) : ∃ writable,
    fs.stat item.change.path = .ok (item.location, .file (.text item.before) writable) := by
  obtain ⟨path, hpath, source, hoists, rfl⟩ := mem_restorations.mp mem
  obtain ⟨location, writable, read⟩ := readText_eq_ok_iff.mp (readText_of_hoisted hoists)
  have resolved := h.resolves path hpath _ (h.apart.canonical hpath)
  obtain rfl := eq_placeOf_of_stat read
  exact ⟨writable, resolved.trans read⟩

/-- No file of the run is in the state directory. -/
theorem outside_of_mem_restorations (mem : item ∈ run.restorations fs) :
    ¬ fs.placeOf run.recording.state <+: item.location := by
  obtain ⟨path, hpath, _, _, rfl⟩ := mem_restorations.mp mem
  exact h.apart.outside path hpath

end IsTraceable

/-- A run that can be undone leaves files that can be told from its record.  Facts about
names are proved from that, so they hold for runs with failed writes too. -/
theorem IsUndoable.isTraceable (h : IsUndoable state run fs) : IsTraceable run fs := by
  obtain rfl := h.state_eq
  exact ⟨h.isRunId, h.time, h.apart, h.resolves, h.counts, h.digests⟩

theorem IsUndoable.isStorable_record (h : IsUndoable state run fs) :
    (run.record fs).isStorable = true :=
  h.isTraceable.isStorable_record

/-- **What a run leaves to be undone**, given the runs that were recorded before it.  It
is all that later runs have to preserve for this one to be undone. -/
structure Leaves (state : Path) (earlier : List Run) (run : InPlaceRun) (fs : FileSystem) :
    Prop where
  restorable : ∀ item ∈ run.restorations fs, Restorable state run.id item (run.perform fs)
  original : ∀ item ∈ run.restorations fs,
    fs.entryAt? item.location = some (.file (.text item.before) true)
  /-- Once its directory has been made, the run writes the files that it rewrites and what belongs to
  it in the state directory. -/
  changes : Changes (territory (fs.placeOf state) [run.id] ∪
    {location | ∃ item ∈ run.restorations fs, location = item.location}) ∅
    (opened state run.id fs) (run.perform fs)
  ledger : Ledger state (earlier ++ [run.record fs]) (run.perform fs)

namespace IsUndoable

variable {result : FixTally} (h : IsUndoable state run fs)
include h

/-- The files that a run rewrites can be restored as soon as they are written.  Writing
the others does not change them, and the record is in the state directory. -/
theorem restorable (fixed : FilesFixed run.plan run.recording run.files fs middle {} result)
    (mem : item ∈ run.restorations fs) : Restorable state run.id item middle := by
  obtain ⟨writable, found⟩ := h.isTraceable.stat_of_mem_restorations mem
  obtain ⟨located, _, demands⟩ := stat_eq_ok_iff.mp found
  obtain ⟨path, hpath, source, hoists, rfl⟩ := mem_restorations.mp mem
  constructor <;> simp only [changeOf] at located demands ⊢
  case located => exact fixed.changes_univ.locate located
  case fileLike => exact demands.resolve_left (by simp)
  case outside =>
    rw [fixed.changes_univ.placeOf]
    exact h.apart.outside path hpath
  case held => exact ⟨_, fixed.rewritten path hpath source hoists, rfl⟩
  case plain => exact isPlainName_backupName _
  case kept =>
    have kept := fixed.kept h.isTraceable.nodup_backups path hpath source hoists _
      (changeIn?_of_hoisted hoists (h.apart.canonical hpath))
    simp only [h.state_eq, changeOf] at kept
    exact kept

theorem writtenBy_subset : writtenBy run.plan run.recording fs run.files ⊆
    territory (fs.placeOf state) [run.id] ∪
      {location | ∃ item ∈ run.restorations fs, location = item.location} := by
  rintro location ⟨path, hpath, change, hchange, rfl | rfl⟩
  · rw [h.isTraceable.changeIn?_eq hpath, Option.map_eq_some_iff] at hchange
    obtain ⟨item, hitem, _⟩ := hchange
    refine .inr ⟨item, List.mem_filterMap.mpr ⟨path, hpath, hitem⟩, ?_⟩
    obtain ⟨_, _, rfl⟩ := Option.map_eq_some_iff.mp hitem
    rfl
  · rw [h.state_eq]
    exact .inl ⟨run.id, by simp, .inr ⟨change.backup, rfl⟩⟩

/-- What a run does: its files are fixed, and then it is recorded.  The files in between
are where `FilesFixed` and the record meet. -/
theorem exists_filesFixed : ∃ result middle,
    FilesFixed run.plan run.recording run.files fs middle {} result ∧
      Changes (recordSlots (middle.placeOf state) run.id) ∅ middle (run.perform fs) ∧
      Stored state (run.id ++ ".json") (run.record fs).toJson.pretty (run.perform fs) ∧
      ∀ index, RunIndex.ofEntry (middle.entryAt? (middle.placeOf state ++ ["runs.json"])) =
          .ok index →
        Stored state "runs.json" (index.add (run.record fs)).toJson.pretty (run.perform fs) := by
  obtain rfl := h.state_eq
  have inPlace : run.plan.delivery = .inPlace run.recording := rfl
  obtain ⟨result, middle, fixed, records, hrun⟩ :=
    exists_fixFiles inPlace h.isRunId h.apart h.writes
  have hchanges : result.changes = run.changes fs := by
    rw [fixed.changes_eq]
    rfl
  have ready := (fixed.ready h.rewrites).of_child h.isRunId.isPlainName
  rcases hsettle : (settleRun run.plan result).on middle with ⟨outcome, after⟩
  obtain ⟨recorded, stored, listed⟩ :=
    on_settleRun_inPlace inPlace h.isRunId ready (hchanges ▸ h.rewrites) records hsettle
  have performed : run.perform fs = after := by rw [InPlaceRun.perform, hrun, hsettle]
  rw [hchanges] at stored listed
  rw [performed]
  exact ⟨result, middle, fixed, recorded, stored, fun index hindex => (listed index hindex).2⟩

/-- Runs do not move places.  So locations before and after a run can be compared. -/
theorem placeOf_perform (path : Path) : (run.perform fs).placeOf path = fs.placeOf path := by
  obtain ⟨result, middle, fixed, recorded, -, -⟩ := h.exists_filesFixed
  rw [recorded.placeOf, fixed.changes_univ.placeOf]

/-- The files that a run rewrites can be restored once it has been recorded.  The record
is written in the state directory, where no file of the run is. -/
theorem restorable_perform (mem : item ∈ run.restorations fs) :
    Restorable state run.id item (run.perform fs) := by
  obtain ⟨result, middle, fixed, recorded, -, -⟩ := h.exists_filesFixed
  have restorable := h.restorable fixed mem
  refine restorable.of_changes recorded (fun there => ?_) (fun there => ?_)
  · exact restorable.outside (prefix_of_mem_recordSlots there)
  · simp [recordSlots, slot] at there

/-- **One run.**  Its record comes last in the ledger.  The ledger is that of the files
in which the directory of the run has been made, since this is the first thing that a
run does. -/
theorem leaves (ledger : Ledger state earlier (opened state run.id fs))
    (fresh : run.id ∉ earlier.map (·.id)) : Leaves state earlier run fs := by
  obtain ⟨result, middle, fixed, recorded, stored, listed⟩ := h.exists_filesFixed
  obtain rfl := h.state_eq
  obtain ⟨_, written⟩ := fixed.opening h.rewrites
  have kept : Ledger run.recording.state earlier middle := by
    refine ledger.of_changes written ?_ (by simp)
    rw [(opened_changes _ _ fs).placeOf]
    rintro name ⟨path, hpath, _, _, same | same⟩
    · exact h.apart.outside path hpath (same ▸ List.prefix_append _ _)
    · simp at same
  have relisted := listed _ kept.ofEntry
  rw [RunIndex.add_ofRuns_new fresh] at relisted
  have own : recordSlots (fs.placeOf run.recording.state) run.id ⊆
      territory (fs.placeOf run.recording.state) [run.id] := fun location mem =>
    ⟨run.id, by simp, .inl mem⟩
  have nodup : ((earlier ++ [run.record fs]).map (·.id)).Nodup := by
    rw [List.map_append, List.nodup_append]
    refine ⟨kept.nodup, by simp, ?_⟩
    rintro a ha b hb rfl
    obtain rfl := List.mem_singleton.mp hb
    exact fresh ha
  constructor
  · intro item mem
    exact h.restorable_perform mem
  · intro item mem
    obtain ⟨path, hpath, source, hoists, rfl⟩ := mem_restorations.mp mem
    exact fixed.writable path hpath source hoists
  · rw [fixed.changes_univ.placeOf] at recorded
    exact (written.mono h.writtenBy_subset subset_rfl).trans
      (recorded.mono (own.trans Set.subset_union_left) subset_rfl)
  · refine kept.of_recorded h.isRunId h.isStorable_record nodup (by simp) (fun other mem => ?_) recorded stored
      relisted
    rcases List.mem_append.mp mem with mem | mem
    · exact .inr ⟨mem, fun same => fresh (List.mem_map.mpr ⟨other, mem, same⟩)⟩
    · exact .inl (List.mem_singleton.mp mem)

end IsUndoable

/-! ## Undoing runs -/

@[simp] theorem isDeaf_revertAll (state : Path) (ids : List String) :
    (revertAll state ids).IsDeaf := by
  induction ids with
  | nil => exact .pure ()
  | cons id rest ih => exact (isDeaf_revertRun _ _ _).bind fun _ => ih

/-- Undoing one more run after some others.  Runs are undone from the last to the first,
so the induction adds the earliest run at the end. -/
theorem on_revertAll_append {id : String} (h : (revertAll state ids).on fs = (.ok (), middle))
    (last : (revertRun id false state).on middle = (.ok (), after)) :
    (revertAll state (ids ++ [id])).on fs = (.ok (), after) := by
  induction ids generalizing fs with
  | nil =>
      obtain rfl : fs = middle := by simpa [revertAll] using h
      rw [List.nil_append, revertAll, Task.on_bind_of_ok (fun _ => isDeaf_revertAll _ _) last]
      rfl
  | cons first rest ih =>
      obtain ⟨_, between, hfirst, hrest⟩ :=
        (Task.on_bind_eq_ok_iff fun _ => isDeaf_revertAll _ _).mp h
      rw [List.cons_append, revertAll, Task.on_bind_of_ok (fun _ => isDeaf_revertAll _ _) hfirst]
      exact ih hrest

/-- A territory is in the state directory. -/
theorem prefix_of_mem_territory {place location : Location} (h : location ∈ territory place ids) :
    place <+: location := by
  obtain ⟨id, _, record | ⟨name, rfl⟩⟩ := h
  · exact prefix_of_mem_recordSlots record
  · exact List.prefix_append _ _

/-- More runs have more territory. -/
theorem territory_mono {place : Location} {others : List String} (h : ids ⊆ others) :
    territory place ids ⊆ territory place others := by
  rintro location ⟨id, mem, there⟩
  exact ⟨id, h mem, there⟩

/-- The backups of a run are not in the territory of other runs.  Undoing other runs
therefore costs this one nothing. -/
theorem backup_not_mem_territory {place : Location} {id name : String} (h : id ∉ ids) :
    place ++ [id, name] ∉ territory place ids := by
  rintro ⟨other, mem, record | ⟨name, same⟩⟩
  · simp [recordSlots, slot] at record
  · simp only [List.append_cancel_left_eq, List.cons.injEq] at same
    exact h (same.1 ▸ mem)

/-- **Undoing a run** in the files that the later runs have left, once these are undone.
The frame before and after is the same with one run more, which is what lets the
induction go on. -/
theorem IsUndoable.exists_undone {between : FileSystem} {made : Set Location}
    (h : IsUndoable state run fs) (leaves : Leaves state earlier run fs)
    (opening : Changes ∅ made fs (opened state run.id fs)) (fresh : run.id ∉ ids)
    (undone : (revertAll state ids.reverse).on middle = (.ok (), between))
    (changes : Changes (territory (fs.placeOf state) ids) (directories (fs.placeOf state) ids)
      (run.perform fs) between)
    (ledger : Ledger state (earlier ++ run.record fs :: later) between) :
    ∃ after, (revertAll state (run.id :: ids).reverse).on middle = (.ok (), after) ∧
      Changes (territory (fs.placeOf state) (run.id :: ids))
        (made ∪ directories (fs.placeOf state) ids) fs after ∧
      Ledger state (earlier ++ (run.record fs).undone :: later) after := by
  have place : (run.perform fs).placeOf state = fs.placeOf state := h.placeOf_perform state
  have restorable : ∀ item ∈ run.restorations fs, Restorable state run.id item between := by
    intro item mem
    have restorable := leaves.restorable item mem
    refine restorable.of_changes changes (fun there => ?_) ?_
    · exact restorable.outside (place ▸ prefix_of_mem_territory there)
    · rw [place]
      exact backup_not_mem_territory fresh
  obtain ⟨after, hrevert, restored, entries, marked⟩ :=
    ledger.exists_revertRun rfl rfl h.isTraceable.changes_eq restorable h.isTraceable.distinct
  refine ⟨after, ?_, Changes.of_restored {location | ∃ item ∈ run.restorations fs,
    location = item.location} ?_ ?_, marked⟩
  · rw [List.reverse_cons]
    exact on_revertAll_append undone hrevert
  · -- forth through the run and the later ones, and back
    have own : territory (fs.placeOf state) [run.id] ⊆
        territory (fs.placeOf state) (run.id :: ids) := territory_mono (by simp)
    have others : territory (fs.placeOf state) ids ⊆
        territory (fs.placeOf state) (run.id :: ids) := territory_mono (by simp)
    have record : recordSlots (between.placeOf state) run.id ⊆
        territory (fs.placeOf state) (run.id :: ids) := by
      rw [changes.placeOf, place]
      exact fun location mem => ⟨run.id, by simp, .inl mem⟩
    refine (((opening.mono ?_ ?_).trans (leaves.changes.mono ?_ ?_)).trans
      (changes.mono ?_ ?_)).trans (restored.mono ?_ ?_)
    · exact Set.empty_subset _
    · exact Set.subset_union_left
    · exact Set.union_subset_union_left _ own
    · exact Set.empty_subset _
    · exact others.trans Set.subset_union_left
    · exact Set.subset_union_right
    · exact Set.union_subset Set.subset_union_right (record.trans Set.subset_union_left)
    · exact Set.empty_subset _
  · rintro location ⟨item, mem, rfl⟩
    rw [fileAt?_eq_some_iff.mpr (entries item mem), fileAt?_eq_some_iff.mpr (leaves.original item mem)]

/-- **Undoing runs that follow others**, from the last to the first.  An induction along
the runs: the first of them is undone last, in the files that `exists_undone` has left
for the others. -/
theorem Performed.exists_undone (performed : Performed state runs fs middle)
    (ledger : Ledger state earlier fs) (some : earlier ≠ [])
    (nodup : (earlier.map (·.id) ++ runs.map (·.id)).Nodup) :
    ∃ after later, (revertAll state (runs.map (·.id)).reverse).on middle = (.ok (), after) ∧
      Changes (territory (fs.placeOf state) (runs.map (·.id)))
        (directories (fs.placeOf state) (runs.map (·.id))) fs after ∧
      Ledger state (earlier ++ later) after ∧ later.map (·.id) = runs.map (·.id) ∧
      ∀ record ∈ later, record.status = .reverted := by
  induction performed generalizing earlier with
  | nil fs => exact ⟨fs, [], rfl, .refl fs, by simpa using ledger, rfl, by simp⟩
  | @cons run rest fs middle undoable performed ih =>
      obtain ⟨first, hfirst⟩ := List.exists_mem_of_ne_nil earlier some
      have ready := (ledger.records first hfirst).isReady (ledger.ids first hfirst).isPlainName_file
      have opening := ready.opened_changes undoable.isRunId.isPlainName
      have fresh : run.id ∉ earlier.map (·.id) := by
        rw [List.nodup_append] at nodup
        exact fun mem => nodup.2.2 _ mem _ (by simp) rfl
      have kept : Ledger state earlier (opened state run.id fs) := by
        refine ledger.of_changes opening (by simp) fun name same => ?_
        obtain rfl : name = run.id := by simpa using same
        exact undoable.isRunId
      have leaves := undoable.leaves kept fresh
      obtain ⟨between, later, undone, changes, inner, ids, reverted⟩ :=
        ih leaves.ledger (by simp) (by simpa using nodup)
      rw [undoable.placeOf_perform] at changes
      rw [List.append_assoc, List.singleton_append] at inner
      rw [List.map_cons, List.nodup_append, List.nodup_cons] at nodup
      obtain ⟨after, all, net, marked⟩ :=
        undoable.exists_undone leaves opening nodup.2.1.1 undone changes inner
      refine ⟨after, (run.record fs).undone :: later, all, net.mono subset_rfl ?_, marked, ?_, ?_⟩
      · rintro location (rfl | ⟨id, mem, rfl⟩)
        · exact ⟨run.id, by simp, rfl⟩
        · exact ⟨id, List.mem_cons_of_mem _ mem, rfl⟩
      · rw [List.map_cons, List.map_cons, ids]
        rfl
      · intro record mem
        rcases List.mem_cons.mp mem with rfl | mem
        · rfl
        · exact reverted record mem

/-! ## Undoing all runs -/

/-- **The state directory starts empty**: once it has been made for the first run, there
is nothing in it but the directory of that run.  (A state directory that is called
`s/x/..` has `x` in it then.)  That the directory may not exist yet is why it is said of
the files after it has been made. -/
def StartsEmpty (state : Path) (runs : List InPlaceRun) (fs : FileSystem) : Prop :=
  ∀ run ∈ runs.head?, ∀ location, fs.placeOf state <+: location → location ≠ fs.placeOf state →
    location ≠ fs.placeOf state ++ [run.id] → (opened state run.id fs).entryAt? location = none

/-- The ledger of the first run is blank.  It is where the induction over runs starts.
-/
theorem StartsEmpty.ledger (empty : StartsEmpty state (run :: rest) fs) (isRunId : IsRunId run.id) :
    Ledger state [] (opened state run.id fs) := by
  refine ⟨by simp, by simp, by simp, by simp, fun _ => ?_, by simp⟩
  rw [(opened_changes state run.id fs).placeOf]
  refine empty run (by simp) _ (List.prefix_append _ _) (by simp) ?_
  simpa using isRunId.ne_of_length (by decide)

/-- **A run is marked as undone** both in its file and in the index.  A user sees the
second of these, undoing looks at the first. -/
def IsMarkedReverted (state : Path) (id : String) (fs : FileSystem) : Prop :=
  ∃ record index, Run.load id state fs = .ok record ∧ RunIndex.load state fs = .ok index ∧
    index.find? id = some record ∧ record.status = .reverted

/-- **All of some runs are undone**, given the files before the first of them.  Files
inside the state directory are not restored: the records and backups stay. -/
structure AllUndone (state : Path) (runs : List InPlaceRun) (before after : FileSystem) : Prop where
  /-- Every file outside the state directory is what it was. -/
  restored : ∀ location, ¬ before.placeOf state <+: location →
    after.fileAt? location = before.fileAt? location
  /-- So every file that was given to one of the runs is. -/
  inputs : ∀ run ∈ runs, ∀ path ∈ run.files,
    after.fileAt? (after.placeOf path) = before.fileAt? (before.placeOf path)
  marked : ∀ run ∈ runs, IsMarkedReverted state run.id after

/-- The files of all runs are outside the state directory.  Places do not move, so this
can be said of the files before all runs. -/
theorem Performed.outside (performed : Performed state runs fs after) :
    ∀ run ∈ runs, ∀ path ∈ run.files, ¬ fs.placeOf state <+: fs.placeOf path := by
  induction performed with
  | nil fs => simp
  | cons undoable later ih =>
      intro run mem path hpath
      rcases List.mem_cons.mp mem with rfl | mem
      · exact undoable.apart.outside path hpath
      · have := ih run mem path hpath
        rwa [undoable.placeOf_perform, undoable.placeOf_perform] at this

/-- The runs of a ledger are marked when their records say so.  The ledger has the
record in both places. -/
theorem isMarkedReverted_of_ledger {records : List Run} (ledger : Ledger state records fs)
    (reverted : ∀ record ∈ records, record.status = .reverted) {id : String}
    (listed : id ∈ records.map (·.id)) : IsMarkedReverted state id fs := by
  obtain ⟨record, mem, rfl⟩ := List.mem_map.mp listed
  exact ⟨record, _, ledger.load mem, ledger.load_index (List.ne_nil_of_mem mem),
    RunIndex.find?_ofRuns ledger.nodup mem, reverted record mem⟩

/-- **Runs can be undone in reverse order.**  After runs with different identifiers, each of them
undoable when its turn came, in a state directory that started empty, all of them can be undone from the
last to the first; then every file is what it was before the first run, and all runs are marked. -/
theorem runs_undone_in_reverse (state : Path) (runs : List InPlaceRun) (before middle : FileSystem)
    (performed : Performed state runs before middle) (distinct : (runs.map (·.id)).Nodup)
    (empty : StartsEmpty state runs before) :
    ∃ after, (revertAll state (runs.map (·.id)).reverse).on middle = (.ok (), after) ∧
      AllUndone state runs before after := by
  have outside := performed.outside
  cases performed with
  | nil => exact ⟨before, rfl, fun _ _ => rfl, by simp, by simp⟩
  | @cons run rest _ _ undoable later =>
      rw [List.map_cons, List.nodup_cons] at distinct
      have opening := opened_changes state run.id before
      have leaves := undoable.leaves (empty.ledger undoable.isRunId) (by simp)
      obtain ⟨between, records, undone, changes, inner, ids, reverted⟩ :=
        later.exists_undone leaves.ledger (by simp) (by simpa using distinct)
      rw [undoable.placeOf_perform] at changes
      obtain ⟨after, all, net, marked⟩ :=
        undoable.exists_undone leaves opening distinct.1 undone changes inner
      have restored : ∀ location, ¬ before.placeOf state <+: location →
          after.fileAt? location = before.fileAt? location := fun location apart =>
        net.fileAt?_eq fun there => apart (prefix_of_mem_territory there)
      refine ⟨after, all, restored, fun run mem path hpath => ?_, fun run mem => ?_⟩
      · rw [net.placeOf]
        exact restored _ (outside run mem path hpath)
      · refine isMarkedReverted_of_ledger marked ?_ ?_
        · intro record hrecord
          rcases List.mem_cons.mp hrecord with rfl | hrecord
          · rfl
          · exact reverted record hrecord
        · have : run.id ∈ (_ :: rest).map InPlaceRun.id := List.mem_map_of_mem mem
          simpa [Run.undone, ids] using this

end AliasHoist.Command

namespace AliasHoist.Specimen

open Command FileSystem

/-- The run on the specimen and on a file that is no text. -/
def inPlaceRun : InPlaceRun where
  parse := parser
  config := {}
  format := .lines
  summary := false
  recording := recording
  files := [path, otherPath]

/-- The path of the copy of the specimen. -/
def thirdPath : Path := { text := "c.ts" }

/-- The path of the copy from the root. -/
def thirdAbsolute : Path := { text := "/w/c.ts" }

/-- The run after the first one: there is nothing left to fix in the specimen, but in its copy. -/
def secondRun : InPlaceRun :=
  { inPlaceRun with
    recording := { recording with id := "4d5e6f7", time := { seconds := 60, nanos := 0 } }
    files := [path, thirdPath] }

/-- The files between the runs. -/
def afterFirst : FileSystem := inPlaceRun.perform files

/-- The locations that the first run writes. -/
def firstWritten : Set Location := territory ["s"] ["0a1b2c3"] ∪ {["w", "a.ts"]}

/-- The files with the directory of the second run. -/
def secondMade : FileSystem := afterFirst.put ["s", "4d5e6f7"] .directory

/-- The files with the backup of the copy. -/
def secondBackedUp : FileSystem :=
  secondMade.put ["s", "4d5e6f7", backupName thirdAbsolute] (.file (.text source) true)

/-- The files once the copy has been rewritten. -/
def secondRewritten : FileSystem :=
  secondBackedUp.put ["w", "c.ts"] (.file (.text hoisted) true)

theorem changes_inPlaceRun : inPlaceRun.changes files = [changeOf absolute hoistedSource] := by
  have first : changeIn? plan files path = some (changeOf absolute hoistedSource) :=
    changeIn?_of_hoisted hoisted?_path (by decide)
  have second : changeIn? plan files otherPath = none :=
    changeIn?_of_not_hoisted (on_fixFile_of_cannotFix {} cannotFix_otherPath).1
  have same : inPlaceRun.plan = plan := rfl
  rw [InPlaceRun.changes, same]
  simp [inPlaceRun, first, second]

/-- Digests that differ are those of different paths.  It reduces the hypothesis on
digests to the two that are compared. -/
theorem injOn_digests {fs : FileSystem} {first second a b : Path} (ha : fs.canonical first = .ok a)
    (hb : fs.canonical second = .ok b)
    (apart : contentDigest (.text a.text) ≠ contentDigest (.text b.text)) :
    Set.InjOn (fun absolute : Path => contentDigest (.text absolute.text))
      {absolute | ∃ path ∈ [first, second], fs.canonical path = .ok absolute} := by
  rintro x ⟨given, mem, hx⟩ y ⟨other, mem', hy⟩ same
  rcases List.mem_pair.mp mem with rfl | rfl <;> rcases List.mem_pair.mp mem' with rfl | rfl
  · exact Except.ok.inj (hx.symm.trans hy)
  · obtain rfl := Except.ok.inj (ha.symm.trans hx)
    obtain rfl := Except.ok.inj (hb.symm.trans hy)
    exact absurd same apart
  · obtain rfl := Except.ok.inj (hb.symm.trans hx)
    obtain rfl := Except.ok.inj (ha.symm.trans hy)
    exact absurd same.symm apart
  · exact Except.ok.inj (hx.symm.trans hy)

theorem contentDigest_files :
    contentDigest (.text "/w/a.ts") =
        "b21cef36cafcd87871bdb2a019e947fbff14cb47b88a3de17b8cf504214dd5bc" ∧
      contentDigest (.text "/w/a.ts") ≠ contentDigest (.text "/w/b.ts") ∧
      contentDigest (.text "/w/a.ts") ≠ contentDigest (.text "/w/c.ts") := by
  decide +kernel

theorem isUndoable_inPlaceRun : IsUndoable { text := "/s" } inPlaceRun files where
  state_eq := rfl
  isRunId := by decide
  time := by decide
  apart := areApart
  resolves := by
    have first : files.canonical path = .ok absolute := by decide
    have second : files.canonical otherPath = .ok { text := "/w/b.ts" } := by decide
    intro given mem found hfound
    rcases List.mem_pair.mp mem with rfl | rfl
    · obtain rfl := Except.ok.inj (first.symm.trans hfound)
      decide
    · obtain rfl := Except.ok.inj (second.symm.trans hfound)
      decide
  rewrites := by simp [changes_inPlaceRun]
  writes := noWriteFails
  counts := by
    rw [changes_inPlaceRun]
    simp [changeOf, hoistedSource]
  digests := by
    have first : files.canonical path = .ok absolute := by decide
    have second : files.canonical otherPath = .ok { text := "/w/b.ts" } := by decide
    obtain ⟨-, apart, -⟩ := contentDigest_files
    exact injOn_digests first second apart

theorem opened_files : opened { text := "/s" } inPlaceRun.id files = made :=
  congrArg Prod.fst makeDirectories_files

theorem startsEmpty (rest : List InPlaceRun) :
    StartsEmpty { text := "/s" } (inPlaceRun :: rest) files := by
  have place : files.placeOf { text := "/s" } = ["s"] := by decide
  intro run first location below proper other
  obtain rfl := Option.some.inj first
  rw [opened_files]
  rw [place] at below proper other
  obtain ⟨names, rfl⟩ := below
  have nonempty : names ≠ [] := by simpa using proper
  have apart : names ≠ ["0a1b2c3"] := by simpa [inPlaceRun, InPlaceRun.id, recording] using other
  have keys : made.entries.map (·.1) = [["s", "0a1b2c3"], ["s"], ["w"], ["w", "a.ts"],
      ["w", "b.ts"], ["w", "c.ts"]] := by decide
  have free : ["s"] ++ names ∉ made.entries.map (·.1) := by
    rw [keys]
    simp [nonempty, apart]
  rw [entryAt?, if_neg (by simp), List.lookup_eq_none_iff]
  intro entry mem
  rw [bne_iff_ne]
  exact fun same => free (List.mem_map.mpr ⟨entry, mem, same.symm⟩)

theorem leaves_inPlaceRun : Leaves { text := "/s" } [] inPlaceRun files := by
  have undoable := isUndoable_inPlaceRun
  exact undoable.leaves ((startsEmpty []).ledger undoable.isRunId) (by simp)

theorem changes_afterFirst : Changes firstWritten ∅ made afterFirst := by
  have leaves := leaves_inPlaceRun
  have changes := leaves.changes
  rw [opened_files] at changes
  have place : files.placeOf { text := "/s" } = ["s"] := by decide
  rw [place] at changes
  refine changes.mono (Set.union_subset_union_right _ ?_) subset_rfl
  rintro location ⟨item, mem, rfl⟩
  obtain ⟨given, hgiven, source, hoists, rfl⟩ := mem_restorations.mp mem
  rcases List.mem_pair.mp hgiven with rfl | rfl
  · show files.placeOf path ∈ _
    decide
  · have none : hoisted? plan files otherPath = none :=
      (on_fixFile_of_cannotFix {} cannotFix_otherPath).1
    exact absurd (hoists.symm.trans none) (by simp)

/-- Outside the state directory and the specimen nothing is written.  It frames the copy
of the specimen while the first run is at work. -/
theorem not_mem_firstWritten {location : Location} (outside : ¬ ["s"] <+: location)
    (other : location ≠ ["w", "a.ts"]) : location ∉ firstWritten := by
  rintro (there | there)
  · exact outside (prefix_of_mem_territory there)
  · exact other there

theorem stat_path_afterFirst :
    afterFirst.stat path = .ok (["w", "a.ts"], .file (.text hoisted) true) := by
  have undoable := isUndoable_inPlaceRun
  obtain ⟨result, middle, fixed, recorded, -, -⟩ := undoable.exists_filesFixed
  have place : files.placeOf path = ["w", "a.ts"] := by decide
  have held := fixed.stat_rewritten (by simp [inPlaceRun]) hoisted?_path
  rw [place] at held
  refine recorded.stat held fun there => ?_
  rw [fixed.changes_univ.placeOf] at there
  exact absurd (prefix_of_mem_recordSlots there) (by decide)

theorem stat_third_afterFirst :
    afterFirst.stat thirdPath = .ok (["w", "c.ts"], .file (.text source) true) :=
  changes_afterFirst.stat (by decide) (not_mem_firstWritten (by decide) (by decide))

/-- There is nothing to fix in what was hoisted.  The second run of the specimens finds
the file like this. -/
theorem hoisted?_eq_none {fs : FileSystem} {path : Path}
    (known : path.dialect? = some .typeScript) (read : fs.readText path = .ok hoisted) :
    hoisted? plan fs path = none := by
  have new : Editor.new plan.parse hoisted .typeScript = .ok hoistedEditor := by
    rw [Editor.new]
    simp only [plan, parser]
    rw [if_neg (by decide), if_pos trivial]
    rfl
  have fixed : (hoistedEditor.fixAll parser true 10).result =
      (hoistedEditor, .ok { toProgress := .none, remaining := hoistedEditor.findings true }) := by
    rw [Editor.fixAll_of_not_hasErrors parser rfl, Editor.result_fixFrom_of_nil accepted_hoistedEditor]
  exact hoisted?_of_result known read new rfl fixed

theorem entryAt?_afterFirst_directory : afterFirst.entryAt? ["s", "4d5e6f7"] = none := by
  rw [changes_afterFirst.entryAt?_eq ?_ (Set.notMem_empty _)]
  · decide
  · rintro (⟨id, mem, record | ⟨name, same⟩⟩ | there)
    · obtain rfl := List.mem_singleton.mp mem
      revert record
      simp [recordSlots, slot]
    · simp at same
    · simp at there

theorem makeDirectories_afterFirst :
    afterFirst.makeDirectories (secondRun.recording.state.child secondRun.id) =
      (secondMade, .ok ()) :=
  makeDirectories_of_free (by decide) (changes_afterFirst.locate (by decide))
    entryAt?_afterFirst_directory

theorem secondMade_changes : Changes ∅ {["s", "4d5e6f7"]} afterFirst secondMade :=
  put_directory_changes entryAt?_afterFirst_directory

theorem entryAt?_secondMade (name : String) : secondMade.entryAt? ["s", "4d5e6f7", name] = none := by
  rw [secondMade_changes.entryAt?_eq (Set.notMem_empty _) (by simp),
    changes_afterFirst.entryAt?_eq ?_ (Set.notMem_empty _)]
  · simp [entryAt?, made, files, put, List.lookup_cons]
  · rintro (⟨id, mem, record | ⟨other, same⟩⟩ | there)
    · simp [recordSlots, slot] at record
    · obtain rfl := List.mem_singleton.mp mem
      simp at same
    · simp at there

theorem secondBackedUp_changes :
    Changes {["s", "4d5e6f7", backupName thirdAbsolute]} ∅ secondMade secondBackedUp :=
  put_file_changes (by simp [entryAt?_secondMade]) _ _

theorem stat_third_secondBackedUp :
    secondBackedUp.stat thirdPath = .ok (["w", "c.ts"], .file (.text source) true) :=
  secondBackedUp_changes.stat (secondMade_changes.stat stat_third_afterFirst (Set.notMem_empty _))
    (by simp)

theorem secondRewritten_changes : Changes {["w", "c.ts"]} ∅ secondBackedUp secondRewritten :=
  put_file_changes (by simp [(stat_eq_ok_iff.mp stat_third_secondBackedUp).2.1]) _ _

theorem placeOf_secondMade :
    secondMade.placeOf (secondRun.recording.state.child secondRun.id) = ["s", "4d5e6f7"] := by
  rw [secondMade_changes.placeOf, changes_afterFirst.placeOf]
  decide

theorem leads_secondMade : secondMade.Leads (secondRun.recording.state.child secondRun.id) := by
  have directory : secondMade.locate (secondRun.recording.state.child secondRun.id) =
      .ok ["s", "4d5e6f7"] :=
    secondMade_changes.locate (changes_afterFirst.locate (by decide))
  rw [Leads, placeOf_secondMade]
  exact ⟨(locate_eq_ok_iff_follow.mp directory).2, entryAt?_put_self _ _ (by simp)⟩

theorem on_rewriteFile_third :
    (rewriteFile secondRun.recording secondRun.format thirdPath hoistedSource).on afterFirst =
      (.ok (changeOf thirdAbsolute hoistedSource), secondRewritten) :=
  on_rewriteFile_of_free stat_third_afterFirst (by decide) makeDirectories_afterFirst leads_secondMade
    (by decide) (by decide) (by decide) placeOf_secondMade (.inl (entryAt?_secondMade _))
    (by decide)

/-- What the second run does before it is recorded. -/
theorem changes_secondRewritten :
    Changes {["s", "4d5e6f7", backupName thirdAbsolute], ["w", "c.ts"]} {["s", "4d5e6f7"]}
      afterFirst secondRewritten :=
  ((secondMade_changes.mono (by simp) subset_rfl).trans
    (secondBackedUp_changes.mono (by simp) (by simp))).trans
    (secondRewritten_changes.mono (by simp) (by simp))

theorem ledger_secondRewritten :
    Ledger { text := "/s" } [inPlaceRun.record files] secondRewritten := by
  have place : afterFirst.placeOf { text := "/s" } = ["s"] := by
    rw [changes_afterFirst.placeOf]
    decide
  refine leaves_inPlaceRun.ledger.of_changes changes_secondRewritten (fun name there => ?_)
    fun name there => ?_
  · have there : ["s"] ++ [name] ∈ _ := place ▸ there
    simp at there
  · have there : ["s"] ++ [name] ∈ _ := place ▸ there
    obtain rfl : name = "4d5e6f7" := by simpa using there
    decide

theorem canStore_secondRewritten : CanStore { text := "/s" } "4d5e6f7.json" secondRewritten := by
  have free : CanStore { text := "/s" } "4d5e6f7.json" made :=
    ⟨by decide, by decide, by decide, by decide⟩
  have place : made.placeOf { text := "/s" } = ["s"] := by decide
  have firstApart : Disjoint (slot ["s"] "4d5e6f7.json") firstWritten := by
    rw [Set.disjoint_left]
    rintro location (rfl | rfl) (⟨id, mem, record | ⟨name, same⟩⟩ | there)
    all_goals simp_all [recordSlots, slot]
  refine (free.of_changes changes_afterFirst ?_ (Set.disjoint_empty _)).of_changes
    changes_secondRewritten ?_ ?_
  · rw [place]
    exact firstApart
  · rw [changes_afterFirst.placeOf, place, Set.disjoint_left]
    rintro location (rfl | rfl)
    all_goals simp
  · rw [changes_afterFirst.placeOf, place, Set.disjoint_left]
    rintro location (rfl | rfl)
    all_goals simp

theorem isRunId_secondRun : IsRunId secondRun.id := by decide

theorem noWriteFails_secondRun :
    NoWriteFails secondRun.plan secondRun.recording secondRun.files {} afterFirst := by
  have nothing : hoisted? secondRun.plan afterFirst path = none :=
    hoisted?_eq_none (by decide) (readText_eq_ok_iff.mpr ⟨_, _, stat_path_afterFirst⟩)
  have hoists : hoisted? secondRun.plan afterFirst thirdPath = some hoistedSource :=
    hoisted?_eq (by decide) (readText_eq_ok_iff.mpr ⟨_, _, stat_third_afterFirst⟩)
  have inPlace : secondRun.plan.delivery = .inPlace secondRun.recording := rfl
  have first : ∃ tally, (fixFile secondRun.plan {} path).on afterFirst = (.ok tally, afterFirst) := by
    rcases on_fixFile_cases secondRun.plan {} path afterFirst with
      ⟨_, found, _, _⟩ | ⟨_, _, h⟩ | ⟨_, _, h⟩
    · simp [nothing] at found
    · exact ⟨_, h⟩
    · exact ⟨_, h⟩
  obtain ⟨tally, first⟩ := first
  have second := on_fixFile_of_hoisted tally hoists
  rw [on_deliver_of_rewriteFile inPlace on_rewriteFile_third] at second
  refine .cons (by simp [nothing]) first (.cons (fun found hfound => ?_) second (.nil ?_))
  · obtain rfl := Option.some.inj (hoists.symm.trans hfound)
    rw [failsToWrite, show secondRun.plan.format = secondRun.format from rfl, on_rewriteFile_third]
  · have ledger := ledger_secondRewritten
    have listed := ledger.listed (by simp)
    obtain ⟨after, saved⟩ := Run.exists_save (listed.isReady isPlainName_index)
      (secondRun.recording.run (tally.changes ++ [changeOf thirdAbsolute hoistedSource]))
      isRunId_secondRun canStore_secondRewritten listed.canStore ledger.ofEntry
    have state : secondRun.recording.state = { text := "/s" } := rfl
    rw [failsToWrite, inPlace, on_conclude_inPlace (by simp [FixTally.record])]
    simp only [FixTally.record, FixTally.count_changes, state, saved]
    rfl

theorem canonical_path_afterFirst : afterFirst.canonical path = .ok absolute :=
  (canonical_of_stat stat_path_afterFirst).trans (by decide)

theorem canonical_third_afterFirst : afterFirst.canonical thirdPath = .ok thirdAbsolute :=
  (canonical_of_stat stat_third_afterFirst).trans (by decide)

theorem areApart_afterFirst : AreApart { text := "/s" } secondRun.files afterFirst where
  named given mem := by
    rcases List.mem_pair.mp mem with rfl | rfl
    · exact ⟨_, canonical_path_afterFirst⟩
    · exact ⟨_, canonical_third_afterFirst⟩
  distinct := by
    simp [secondRun, canonical_path_afterFirst, canonical_third_afterFirst, absolute, thirdAbsolute]
  outside given mem := by
    rw [changes_afterFirst.placeOf, changes_afterFirst.placeOf]
    rcases List.mem_pair.mp mem with rfl | rfl
    · decide
    · decide

theorem changes_secondRun :
    secondRun.changes afterFirst = [changeOf thirdAbsolute hoistedSource] := by
  have first : changeIn? secondRun.plan afterFirst path = none :=
    changeIn?_of_not_hoisted
      (hoisted?_eq_none (by decide) (readText_eq_ok_iff.mpr ⟨_, _, stat_path_afterFirst⟩))
  have second : changeIn? secondRun.plan afterFirst thirdPath =
      some (changeOf thirdAbsolute hoistedSource) :=
    changeIn?_of_hoisted
      (hoisted?_eq (by decide) (readText_eq_ok_iff.mpr ⟨_, _, stat_third_afterFirst⟩))
      canonical_third_afterFirst
  have given : secondRun.files = [path, thirdPath] := rfl
  rw [InPlaceRun.changes, given, List.filterMap_cons_none first, List.filterMap_cons_some second,
    List.filterMap_nil]

theorem isUndoable_secondRun : IsUndoable { text := "/s" } secondRun afterFirst where
  state_eq := rfl
  isRunId := isRunId_secondRun
  time := by decide
  apart := areApart_afterFirst
  resolves := by
    intro given mem found hfound
    rcases List.mem_pair.mp mem with rfl | rfl
    · obtain rfl := Except.ok.inj (canonical_path_afterFirst.symm.trans hfound)
      obtain ⟨_, held, _⟩ := stat_eq_ok_iff.mp stat_path_afterFirst
      exact (stat_eq_ok_iff.mpr ⟨changes_afterFirst.locate (by decide), held,
        Or.inr (by decide)⟩).trans stat_path_afterFirst.symm
    · obtain rfl := Except.ok.inj (canonical_third_afterFirst.symm.trans hfound)
      obtain ⟨_, held, _⟩ := stat_eq_ok_iff.mp stat_third_afterFirst
      exact (stat_eq_ok_iff.mpr ⟨changes_afterFirst.locate (by decide), held,
        Or.inr (by decide)⟩).trans stat_third_afterFirst.symm
  rewrites := by simp [changes_secondRun]
  writes := noWriteFails_secondRun
  counts := by
    rw [changes_secondRun]
    simp [changeOf, hoistedSource]
  digests := by
    obtain ⟨-, -, apart⟩ := contentDigest_files
    exact injOn_digests canonical_path_afterFirst canonical_third_afterFirst apart

end AliasHoist.Specimen

namespace AliasHoist.Command

/-- Two runs, of which the first could not read a file and the second had nothing to do in what the first
had rewritten. -/
theorem runs_undone_in_reverse_specimen :
    ∃ after, (revertAll { text := "/s" } ["4d5e6f7", "0a1b2c3"]).on
        (Specimen.secondRun.perform (Specimen.inPlaceRun.perform Specimen.files)) =
        (.ok (), after) ∧
      after.fileAt? ["w", "a.ts"] = some (.text Specimen.source, true) ∧
      after.fileAt? ["w", "c.ts"] = some (.text Specimen.source, true) ∧
      IsMarkedReverted { text := "/s" } "0a1b2c3" after ∧
      IsMarkedReverted { text := "/s" } "4d5e6f7" after := by
  have performed : Performed { text := "/s" } [Specimen.inPlaceRun, Specimen.secondRun]
      Specimen.files (Specimen.secondRun.perform (Specimen.inPlaceRun.perform Specimen.files)) :=
    .cons Specimen.isUndoable_inPlaceRun (.cons Specimen.isUndoable_secondRun (.nil _))
  have distinct : ([Specimen.inPlaceRun, Specimen.secondRun].map (·.id)).Nodup := by decide
  obtain ⟨after, reverted, undone⟩ := runs_undone_in_reverse { text := "/s" }
    [Specimen.inPlaceRun, Specimen.secondRun] Specimen.files _ performed distinct
    (Specimen.startsEmpty _)
  have restored (name : String) : after.fileAt? ["w", name] = Specimen.files.fileAt? ["w", name] := by
    have place : Specimen.files.placeOf { text := "/s" } = ["s"] := by decide
    exact undone.restored _ (by simp [place])
  have first : Specimen.files.fileAt? ["w", "a.ts"] = some (.text Specimen.source, true) := by
    decide
  have third : Specimen.files.fileAt? ["w", "c.ts"] = some (.text Specimen.source, true) := by
    decide
  have marked := undone.marked Specimen.inPlaceRun (by simp)
  have marked' := undone.marked Specimen.secondRun (by simp)
  exact ⟨after, reverted, (restored _).trans first, (restored _).trans third, marked, marked'⟩

end AliasHoist.Command
