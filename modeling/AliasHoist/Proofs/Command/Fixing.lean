import AliasHoist.Proofs.Command.Rewriting
import AliasHoist.Proofs.Editor.Session
import Mathlib.Data.List.Basic

/-!
# Fixing files in place

A run fixes files one after the other and keeps one tally.  What becomes of a file depends on that file
alone: with files that are apart from each other and from the state directory, every step of the run
leaves the rest of its list as the run found it.

## Main Definitions

* `AreApart`: the files of a run are different files outside the state directory;
* `NoWriteFails`: no write of a run fails;
* `FilesFixed`: what has become of some files of a run;
* `FixedInPlace`: what a whole run has done.

## Main Statements

* `filesFixed_single`, `FilesFixed.cons`: one file, and one file before others;
* `exists_filesFixed`: all files of a run;
* `fixFiles_changes_and_records`: a run changes and records exactly what it should.
-/

namespace AliasHoist

namespace Command

open FileSystem

/-- Whether a command failed to write something.  Failures of writing depend on the
disk, while all others are determined by the files and the parser. -/
def CommandError.isWriteFailure : CommandError → Bool
  | .writeFile _ _ => true
  | .run reason => reason.isWriteFailure
  | _ => false

/-- Whether a task fails to write something.  It is a `Bool` so that it can be computed
for a specimen. -/
def failsToWrite {α : Type} (task : Task CommandError α) (fs : FileSystem) : Bool :=
  match (task.on fs).1 with
  | .ok _ => false
  | .error reason => reason.isWriteFailure

/-- For a task with a known failure it is a matter of the reason. -/
theorem failsToWrite_of_error {α : Type} {task : Task CommandError α} {fs after : FileSystem}
    {reason : CommandError} (h : task.on fs = (.error reason, after)) :
    failsToWrite task fs = reason.isWriteFailure := by
  rw [failsToWrite, h]

/-- **No write of a run fails**: neither the backup nor the file of a source that is
hoisted, nor the record at the end.  It follows the run, file by file, since whether a
write fails depends on what was written before. -/
inductive NoWriteFails (plan : FixPlan) (recording : Recording) :
    List Path → FixTally → FileSystem → Prop where
  | nil {tally : FixTally} {fs : FileSystem}
      (records : failsToWrite (conclude plan.delivery tally) fs = false) :
      NoWriteFails plan recording [] tally fs
  | cons {path : Path} {rest : List Path} {tally next : FixTally} {fs after : FileSystem}
      (rewrites : ∀ source, hoisted? plan fs path = some source →
        failsToWrite (rewriteFile recording plan.format path source) fs = false)
      (step : (fixFile plan tally path).on fs = (.ok next, after))
      (later : NoWriteFails plan recording rest next after) :
      NoWriteFails plan recording (path :: rest) tally fs

/-- **The files of a run are different files outside the state directory**: each path
names something, and no two of them the same.  Canonical forms are compared and not
texts, as two spellings of one path are one file. -/
structure AreApart (state : Path) (files : List Path) (fs : FileSystem) : Prop where
  named : ∀ path ∈ files, ∃ absolute, fs.canonical path = .ok absolute
  distinct : files.Pairwise fun a b => fs.canonical a ≠ fs.canonical b
  outside : ∀ path ∈ files, ¬ fs.placeOf state <+: fs.placeOf path

variable {plan : FixPlan} {recording : Recording} {state path : Path} {files rest : List Path}
  {before middle after fs : FileSystem} {tally between result : FixTally} {made : Set Location}

/-- The fixed source knows the text that it was made from. -/
theorem readText_of_hoisted {source : HoistedSource} (h : hoisted? plan fs path = some source) :
    fs.readText path = .ok source.before := by
  rw [hoisted?] at h
  cases hdialect : path.dialect? with
  | none => simp [hdialect] at h
  | some dialect =>
      cases htext : fs.readText path with
      | error reason => simp [hdialect, htext, Except.toOption] at h
      | ok before =>
          cases hnew : Editor.new plan.parse before dialect with
          | error reason => simp [hdialect, htext, hnew, Except.toOption] at h
          | ok editor =>
              simp only [hdialect, htext, hnew, Except.toOption, Option.bind_eq_bind,
                Option.bind_some] at h
              split at h
              · simp at h
              · obtain ⟨outcome, _, hsource⟩ := Option.bind_eq_some_iff.mp h
                split at hsource
                · simp at hsource
                · obtain rfl := Option.some.inj hsource
                  rfl

/-! ## Files that are apart -/

/-- A path with a canonical form names what is at its place.  The absolute path is made
from the location, so equal canonical forms are equal places. -/
theorem stat_of_canonical {absolute : Path} (h : fs.canonical path = .ok absolute) :
    absolute = pathOf (fs.placeOf path) ∧ ∃ entry, fs.stat path = .ok (fs.placeOf path, entry) := by
  obtain ⟨location, entry, hstat, same⟩ := canonical_eq_ok_iff.mp h
  obtain rfl := eq_placeOf_of_stat hstat
  exact ⟨same, entry, hstat⟩

namespace AreApart

/-- The rest of the files are apart. -/
theorem tail (h : AreApart state (path :: files) fs) : AreApart state files fs where
  named other mem := h.named other (List.mem_cons_of_mem _ mem)
  distinct := h.distinct.of_cons
  outside other mem := h.outside other (List.mem_cons_of_mem _ mem)

/-- Each of them names something at its place. -/
theorem stat (h : AreApart state files fs) (mem : path ∈ files) :
    ∃ entry, fs.stat path = .ok (fs.placeOf path, entry) := by
  obtain ⟨absolute, habsolute⟩ := h.named path mem
  exact (stat_of_canonical habsolute).2

/-- The canonical form of each is that of its place. -/
theorem canonical (h : AreApart state files fs) (mem : path ∈ files) :
    fs.canonical path = .ok (pathOf (fs.placeOf path)) := by
  obtain ⟨entry, hstat⟩ := h.stat mem
  exact canonical_of_stat hstat

/-- The first file is somewhere else than the others.  This is what frames the others
while the first is written. -/
theorem placeOf_ne (h : AreApart state (path :: files) fs) {other : Path} (mem : other ∈ files) :
    fs.placeOf other ≠ fs.placeOf path := by
  intro same
  have distinct := List.rel_of_pairwise_cons h.distinct mem
  rw [h.canonical List.mem_cons_self, h.canonical (List.mem_cons_of_mem _ mem), same] at distinct
  exact distinct rfl

section

variable {written : Set Location} (h : AreApart state files before)
  (changes : Changes written made before after)
  (untouched : ∀ path ∈ files, before.placeOf path ∉ written)
include h changes untouched

/-- A file that is not written keeps its canonical form. -/
theorem canonical_eq (mem : path ∈ files) : after.canonical path = before.canonical path := by
  obtain ⟨entry, hstat⟩ := h.stat mem
  rw [canonical_of_stat hstat, canonical_of_stat (changes.stat hstat (untouched path mem))]

/-- And it keeps its text. -/
theorem readText_eq (mem : path ∈ files) : after.readText path = before.readText path := by
  obtain ⟨entry, hstat⟩ := h.stat mem
  exact changes.readText hstat (untouched path mem)

/-- Files that are not written stay apart.  The induction over the files of a run goes
on with this. -/
theorem of_changes : AreApart state files after where
  named path mem := ⟨_, (h.canonical_eq changes untouched mem).trans (h.canonical mem)⟩
  distinct := by
    refine h.distinct.imp_of_mem fun ma mb distinct => ?_
    rwa [h.canonical_eq changes untouched ma, h.canonical_eq changes untouched mb]
  outside path mem := by
    rw [changes.placeOf state, changes.placeOf path]
    exact h.outside path mem

/-- What there is to fix in the others stays what it was. -/
theorem hoisted?_eq (mem : path ∈ files) : hoisted? plan after path = hoisted? plan before path :=
  hoisted?_congr (h.readText_eq changes untouched mem)

/-- Whether they can be fixed stays what it was. -/
theorem cannotFix_iff (mem : path ∈ files) :
    CannotFix plan after path ↔ CannotFix plan before path :=
  cannotFix_congr (h.readText_eq changes untouched mem)

/-- So does the change that will be recorded for them. -/
theorem changeIn?_eq (mem : path ∈ files) :
    changeIn? plan after path = changeIn? plan before path := by
  rw [changeIn?, h.hoisted?_eq changes untouched mem, h.canonical_eq changes untouched mem, changeIn?]

end

end AreApart

theorem changeIn?_of_hoisted {source : HoistedSource} {absolute : Path}
    (hoists : hoisted? plan fs path = some source) (habsolute : fs.canonical path = .ok absolute) :
    changeIn? plan fs path = some (changeOf absolute source) := by
  simp [changeIn?, hoists, habsolute, Except.toOption]

theorem changeIn?_of_not_hoisted (nothing : hoisted? plan fs path = none) :
    changeIn? plan fs path = none := by
  simp [changeIn?, nothing]

/-! ## What becomes of files -/

/-- The locations that are written for a file: its own and that of its backup, if it is
rewritten.  For a file without fixes there is none. -/
def writtenFor (plan : FixPlan) (recording : Recording) (fs : FileSystem) (path : Path) :
    Set Location :=
  {location | ∃ change, changeIn? plan fs path = some change ∧
    (location = fs.placeOf path ∨
      location = fs.placeOf recording.state ++ [recording.id, change.backup])}

/-- The locations that are written for some files.  It is computed from the files before
the run, as all that is done to a file is determined by them. -/
def writtenBy (plan : FixPlan) (recording : Recording) (fs : FileSystem) (files : List Path) :
    Set Location :=
  {location | ∃ path ∈ files, location ∈ writtenFor plan recording fs path}

/-- **What has become of some files of a run.**  It speaks of any part of the run, with
the tally before and after that part, so that parts can be put together. -/
structure FilesFixed (plan : FixPlan) (recording : Recording) (files : List Path)
    (before after : FileSystem) (tally result : FixTally) : Prop where
  /-- The changes of the files are recorded in order. -/
  changes_eq : result.changes = tally.changes ++ files.filterMap (changeIn? plan before)
  /-- The files that cannot be fixed are counted as failures. -/
  failed_iff : result.failed ≠ 0 ↔
    tally.failed ≠ 0 ∨ ∃ path ∈ files, CannotFix plan before path
  /-- The files that are rewritten could be written. -/
  writable : ∀ path ∈ files, ∀ source, hoisted? plan before path = some source →
    before.entryAt? (before.placeOf path) = some (.file (.text source.before) true)
  rewritten : ∀ path ∈ files, ∀ source, hoisted? plan before path = some source →
    after.entryAt? (before.placeOf path) = some (.file (.text source.after) true)
  /-- No backup takes the place of another, if their names differ. -/
  kept : ((files.filterMap (changeIn? plan before)).map (·.backup)).Nodup →
    ∀ path ∈ files, ∀ source, hoisted? plan before path = some source →
      ∀ change, changeIn? plan before path = some change →
        KeepsBackup recording.state recording.id change.backup source.before after
  unchanged : files.filterMap (changeIn? plan before) = [] → after = before
  /-- The directory of the run is made before anything is written; after that only the files that are
  rewritten and their backups are written. -/
  opening : files.filterMap (changeIn? plan before) ≠ [] →
    IsReady (recording.state.child recording.id) (opened recording.state recording.id before) ∧
      Changes (writtenBy plan recording before files) ∅
        (opened recording.state recording.id before) after

namespace FilesFixed

variable (h : FilesFixed plan recording files before after tally result)
include h

theorem changes (hmade : Changes ∅ made before (opened recording.state recording.id before)) :
    Changes (writtenBy plan recording before files) made before after := by
  by_cases nothing : files.filterMap (changeIn? plan before) = []
  · rw [h.unchanged nothing]
    exact .refl before
  · exact (hmade.mono (Set.empty_subset _) subset_rfl).trans
      ((h.opening nothing).2.mono subset_rfl (Set.empty_subset _))

/-- Some files are written, and perhaps directories made. -/
theorem changes_univ : Changes (writtenBy plan recording before files) Set.univ before after :=
  h.changes (opened_changes _ _ before)

/-- If something was rewritten, the directory of the run is there. -/
theorem ready (something : files.filterMap (changeIn? plan before) ≠ []) :
    IsReady (recording.state.child recording.id) after :=
  (h.opening something).1.of_changes (h.opening something).2

end FilesFixed

/-- Of no files nothing has become. -/
theorem filesFixed_nil : FilesFixed plan recording [] fs fs tally tally where
  changes_eq := by simp
  failed_iff := by simp
  writable := by simp
  rewritten := by simp
  kept := by simp
  unchanged _ := rfl
  opening := by simp

@[simp] theorem FixTally.count_changes (format : FixFormat) (source : HoistedSource) :
    (tally.count format source).changes = tally.changes := rfl

@[simp] theorem FixTally.count_failed (format : FixFormat) (source : HoistedSource) :
    (tally.count format source).failed = tally.failed := rfl

/-- Rewriting a file that is there can only fail at a write.  Everything else that could
go wrong was found out when its source was read. -/
theorem isWriteFailure_of_rewriteFile {source : HoistedSource} {format : FixFormat}
    {location : Location} {entry : Entry} {reason : CommandError}
    (hstat : fs.stat path = .ok (location, entry))
    (h : (rewriteFile recording format path source).on fs = (.error reason, after)) :
    reason.isWriteFailure = true := by
  rw [on_rewriteFile, on_backUp hstat, on_saveBackup] at h
  rcases hmake : fs.makeDirectories (recording.state.child recording.id) with ⟨made, outcome⟩
  cases outcome with
  | error failure =>
      simp only [hmake, Prod.mk.injEq, Except.error.injEq] at h
      exact h.1 ▸ rfl
  | ok done =>
      simp only [hmake] at h
      cases hkeep : made.write ((recording.state.child recording.id).child
          (backupName (pathOf location))) (.text source.before) with
      | error failure =>
          simp only [hkeep, Prod.mk.injEq, Except.error.injEq] at h
          exact h.1 ▸ rfl
      | ok kept =>
          simp only [hkeep] at h
          cases hwrite : kept.write path (.text source.after) with
          | error failure =>
              simp only [hwrite, Prod.mk.injEq, Except.error.injEq] at h
              exact h.1 ▸ rfl
          | ok written => simp [hwrite] at h

/-- A rewriting that fails at no write succeeds. -/
theorem exists_rewriteFile {source : HoistedSource} {format : FixFormat} {location : Location}
    {entry : Entry} (hstat : fs.stat path = .ok (location, entry))
    (h : failsToWrite (rewriteFile recording format path source) fs = false) :
    ∃ change after, (rewriteFile recording format path source).on fs = (.ok change, after) := by
  rcases hrewrite : (rewriteFile recording format path source).on fs with ⟨outcome, after⟩
  cases outcome with
  | ok change => exact ⟨change, after, rfl⟩
  | error reason =>
      rw [failsToWrite_of_error hrewrite, isWriteFailure_of_rewriteFile hstat hrewrite] at h
      contradiction

/-- **One file**: it is rewritten and recorded, left alone, or counted as a failure.  It
is where the three cases of `on_fixFile_cases` are taken up. -/
theorem filesFixed_single (inPlace : plan.delivery = .inPlace recording)
    (isRunId : IsRunId recording.id) (apart : AreApart recording.state [path] fs)
    (writes : ∀ source, hoisted? plan fs path = some source →
      failsToWrite (rewriteFile recording plan.format path source) fs = false) :
    ∃ result after, (fixFile plan tally path).on fs = (.ok result, after) ∧
      FilesFixed plan recording [path] fs after tally result := by
  obtain ⟨entry, hstat⟩ := apart.stat List.mem_cons_self
  have outside := apart.outside path List.mem_cons_self
  rcases on_fixFile_cases plan tally path fs with
    ⟨source, hoists, fixable, h⟩ | ⟨nothing, fixable, h⟩ | ⟨nothing, unfixable, h⟩
  · obtain ⟨change, after, hrewrite⟩ := exists_rewriteFile hstat (writes source hoists)
    obtain ⟨rfl, ready, changes, held, keeps, old, rfl⟩ :=
      rewriteFile_spec isRunId hstat outside hrewrite
    have recorded := changeIn?_of_hoisted hoists (canonical_of_stat hstat)
    refine ⟨_, after, h.trans (on_deliver_of_rewriteFile inPlace hrewrite), ?_⟩
    constructor
    · simp [FixTally.record, recorded]
    · simp [FixTally.record, fixable]
    · intro other mem found hfound
      obtain rfl := List.mem_singleton.mp mem
      obtain ⟨_, _, read⟩ := readText_eq_ok_iff.mp (readText_of_hoisted hfound)
      obtain ⟨-, rfl, -⟩ : _ ∧ old = .text found.before ∧ _ := by
        simpa using hstat.symm.trans read
      exact (stat_eq_ok_iff.mp hstat).2.1
    · intro other mem found hfound
      obtain rfl := List.mem_singleton.mp mem
      obtain rfl := Option.some.inj (hoists.symm.trans hfound)
      exact held
    · intro _ other mem found hfound change hchange
      obtain rfl := List.mem_singleton.mp mem
      obtain rfl := Option.some.inj (hoists.symm.trans hfound)
      obtain rfl := Option.some.inj (recorded.symm.trans hchange)
      exact keeps
    · simp [recorded]
    · intro _
      refine ⟨ready, changes.mono ?_ subset_rfl⟩
      rintro location (rfl | rfl)
      · exact ⟨path, List.mem_cons_self, _, recorded, Or.inl rfl⟩
      · exact ⟨path, List.mem_cons_self, _, recorded, Or.inr rfl⟩
  · have unrecorded := changeIn?_of_not_hoisted nothing
    refine ⟨tally, fs, h, ?_⟩
    constructor <;> simp_all
  · have unrecorded := changeIn?_of_not_hoisted nothing
    refine ⟨tally.fail, fs, h, ?_⟩
    constructor <;> simp_all [FixTally.fail]

/-- What is written for the first file touches none of the others.  It takes both that
the files are different and that they are outside the state directory. -/
theorem AreApart.placeOf_not_mem_writtenBy (apart : AreApart recording.state (path :: files) fs) :
    ∀ other ∈ files, fs.placeOf other ∉ writtenBy plan recording fs [path] := by
  rintro other mem ⟨single, hsingle, change, _, same⟩
  obtain rfl := List.mem_singleton.mp hsingle
  rcases same with same | same
  · exact apart.placeOf_ne mem same
  · exact apart.outside other (List.mem_cons_of_mem _ mem) (same ▸ List.prefix_append _ _)

section

variable (apart : AreApart recording.state (path :: files) before)
  (first : FilesFixed plan recording [path] before middle tally between)
include apart first

theorem FilesFixed.hoisted?_others {other : Path} (mem : other ∈ files) :
    hoisted? plan middle other = hoisted? plan before other :=
  apart.tail.hoisted?_eq first.changes_univ apart.placeOf_not_mem_writtenBy mem

theorem FilesFixed.changeIn?_others {other : Path} (mem : other ∈ files) :
    changeIn? plan middle other = changeIn? plan before other :=
  apart.tail.changeIn?_eq first.changes_univ apart.placeOf_not_mem_writtenBy mem

/-- The changes of the others can be told before the first is written, or after it. -/
theorem FilesFixed.filterMap_changeIn?_others :
    files.filterMap (changeIn? plan middle) = files.filterMap (changeIn? plan before) :=
  List.filterMap_congr fun _ => first.changeIn?_others apart

/-- So can the locations that will be written for them. -/
theorem FilesFixed.writtenBy_others :
    writtenBy plan recording middle files = writtenBy plan recording before files := by
  ext location
  simp only [writtenBy, writtenFor, Set.mem_ofPred_eq, first.changes_univ.placeOf]
  constructor
  · rintro ⟨other, mem, change, hchange, there⟩
    exact ⟨other, mem, change, (first.changeIn?_others apart mem).symm.trans hchange, there⟩
  · rintro ⟨other, mem, change, hchange, there⟩
    exact ⟨other, mem, change, (first.changeIn?_others apart mem).trans hchange, there⟩

variable (others : FilesFixed plan recording files middle after between result)
include others

/-- The first file keeps its new content while the others are rewritten.  Being
different from all others is needed here, for the backups as well as for the files. -/
theorem FilesFixed.rewritten_first {source : HoistedSource}
    (hoists : hoisted? plan before path = some source) :
    after.entryAt? (before.placeOf path) = some (.file (.text source.after) true) := by
  have further := others.changes_univ
  rw [first.writtenBy_others apart] at further
  refine further.entryAt?_eq_some ?_ (first.rewritten path List.mem_cons_self source hoists)
  rintro ⟨other, mem, change, _, same | same⟩
  · exact apart.placeOf_ne mem same.symm
  · exact apart.outside path List.mem_cons_self (same ▸ List.prefix_append _ _)

/-- The first file keeps its backup while the others are rewritten, if no other has its
name.  Names of backups are digests, so that they differ is a hypothesis and not a
theorem. -/
theorem FilesFixed.kept_first {source : HoistedSource} {change : FileChange}
    (hoists : hoisted? plan before path = some source)
    (hchange : changeIn? plan before path = some change)
    (fresh : change.backup ∉ (files.filterMap (changeIn? plan before)).map (·.backup)) :
    KeepsBackup recording.state recording.id change.backup source.before after := by
  have further := others.changes_univ
  rw [first.writtenBy_others apart] at further
  have kept := first.kept (by simp [hchange]) path List.mem_cons_self source hoists change hchange
  refine kept.of_changes further ?_
  rw [first.changes_univ.placeOf]
  rintro ⟨other, mem, taken, htaken, same | same⟩
  · exact apart.outside other (List.mem_cons_of_mem _ mem) (same ▸ List.prefix_append _ _)
  · have named : change.backup = taken.backup := by simpa using same
    exact fresh (named ▸ List.mem_map_of_mem (List.mem_filterMap.mpr ⟨other, mem, htaken⟩))

/-- The directory of the run is made with the first file that is rewritten.  Which file
that is does not matter, as making the directory again does nothing. -/
theorem FilesFixed.opening_cons
    (something : (path :: files).filterMap (changeIn? plan before) ≠ []) :
    IsReady (recording.state.child recording.id) (opened recording.state recording.id before) ∧
      Changes (writtenBy plan recording before (path :: files)) ∅
        (opened recording.state recording.id before) after := by
  have further := others.opening
  rw [first.filterMap_changeIn?_others apart, first.writtenBy_others apart] at further
  have inFirst : writtenBy plan recording before [path] ⊆
      writtenBy plan recording before (path :: files) := by
    rintro location ⟨single, mem, there⟩
    exact ⟨single, List.mem_cons.mpr (Or.inl (List.mem_singleton.mp mem)), there⟩
  have inOthers : writtenBy plan recording before files ⊆
      writtenBy plan recording before (path :: files) := by
    rintro location ⟨other, mem, there⟩
    exact ⟨other, List.mem_cons_of_mem _ mem, there⟩
  by_cases nothing : [path].filterMap (changeIn? plan before) = []
  · obtain rfl := first.unchanged nothing
    have later : files.filterMap (changeIn? plan middle) ≠ [] := by
      rwa [← List.singleton_append, List.filterMap_append, nothing, List.nil_append] at something
    exact ⟨(further later).1, (further later).2.mono inOthers subset_rfl⟩
  · obtain ⟨ready, changes⟩ := first.opening nothing
    refine ⟨ready, ?_⟩
    by_cases none : files.filterMap (changeIn? plan before) = []
    · rw [others.unchanged ((first.filterMap_changeIn?_others apart).trans none)]
      exact changes.mono inFirst subset_rfl
    · have rest := (further none).2
      rw [(first.ready nothing).opened_eq] at rest
      exact (changes.mono inFirst subset_rfl).trans (rest.mono inOthers subset_rfl)

/-- **One file before others.**  What becomes of the others is what becomes of them by
themselves.  Each field of the conclusion is the field of one part, moved over the other
part by a frame lemma. -/
theorem FilesFixed.cons : FilesFixed plan recording (path :: files) before after tally result := by
  have recorded := first.filterMap_changeIn?_others apart
  constructor
  · rw [others.changes_eq, first.changes_eq, recorded, List.append_assoc,
      ← List.filterMap_append, List.singleton_append]
  · rw [others.failed_iff, first.failed_iff, or_assoc]
    refine or_congr_right ?_
    simp only [List.mem_cons, List.not_mem_nil, or_false, exists_eq_left, exists_eq_or_imp]
    refine or_congr_right (exists_congr fun other => and_congr_right fun mem => ?_)
    exact apart.tail.cannotFix_iff first.changes_univ apart.placeOf_not_mem_writtenBy mem
  · intro other mem source hoists
    rcases List.mem_cons.mp mem with rfl | mem
    · exact first.writable other List.mem_cons_self source hoists
    · have held := others.writable other mem source ((first.hoisted?_others apart mem).trans hoists)
      obtain ⟨entry, hstat⟩ := apart.stat (List.mem_cons_of_mem _ mem)
      rw [first.changes_univ.placeOf] at held
      have still := first.changes_univ.entryAt?_eq_some (apart.placeOf_not_mem_writtenBy other mem)
        (stat_eq_ok_iff.mp hstat).2.1
      obtain rfl := Option.some.inj (still.symm.trans held)
      exact (stat_eq_ok_iff.mp hstat).2.1
  · intro other mem source hoists
    rcases List.mem_cons.mp mem with rfl | mem
    · exact first.rewritten_first apart others hoists
    · rw [← first.changes_univ.placeOf]
      exact others.rewritten other mem source ((first.hoisted?_others apart mem).trans hoists)
  · intro nodup other mem source hoists change hchange
    rcases List.mem_cons.mp mem with rfl | mem
    · rw [List.filterMap_cons_some hchange, List.map_cons, List.nodup_cons] at nodup
      exact first.kept_first apart others hoists hchange nodup.1
    · refine others.kept ?_ other mem source ((first.hoisted?_others apart mem).trans hoists)
        change ((first.changeIn?_others apart mem).trans hchange)
      rw [recorded]
      exact nodup.sublist (((List.sublist_cons_self path files).filterMap _).map _)
  · intro nothing
    rw [← List.singleton_append, List.filterMap_append, List.append_eq_nil_iff] at nothing
    rw [others.unchanged (recorded.trans nothing.2), first.unchanged nothing.1]
  · exact first.opening_cons apart others

end

@[simp] theorem isDeaf_fixEach (plan : FixPlan) (tally : FixTally) (files : List Path) :
    (fixEach plan tally files).IsDeaf := by
  induction files generalizing tally with
  | nil => exact .pure tally
  | cons path rest ih => exact (isDeaf_fixFile _ _ _).bind ih

/-- **All files of a run**, one after the other.  It always gets through: failures of
single files are in the tally. -/
theorem exists_filesFixed (inPlace : plan.delivery = .inPlace recording)
    (isRunId : IsRunId recording.id) (apart : AreApart recording.state files fs)
    (writes : NoWriteFails plan recording files tally fs) :
    ∃ result after, (fixEach plan tally files).on fs = (.ok result, after) ∧
      FilesFixed plan recording files fs after tally result ∧
      failsToWrite (conclude plan.delivery result) after = false := by
  induction writes with
  | nil records => exact ⟨_, _, rfl, filesFixed_nil, records⟩
  | @cons path rest tally next fs after rewrites step later ih =>
      have alone : AreApart recording.state [path] fs :=
        ⟨by simpa using apart.named path List.mem_cons_self, by simp,
          by simpa using apart.outside path List.mem_cons_self⟩
      obtain ⟨between, middle, hfirst, first⟩ : ∃ result after,
          (fixFile plan tally path).on fs = (.ok result, after) ∧
            FilesFixed plan recording [path] fs after tally result :=
        filesFixed_single inPlace isRunId alone rewrites
      obtain ⟨rfl, rfl⟩ : between = next ∧ middle = after := by simpa [hfirst] using step
      have others : AreApart recording.state rest middle :=
        apart.tail.of_changes first.changes_univ apart.placeOf_not_mem_writtenBy
      obtain ⟨result, after, hrest, fixed, records⟩ := ih others
      refine ⟨result, after, ?_, first.cons apart fixed, records⟩
      rw [fixEach, Task.on_bind_of_ok (isDeaf_fixEach plan · rest) hfirst, hrest]

/-! ## The end of a run -/

@[simp] theorem isDeaf_conclude (delivery : Delivery) (tally : FixTally) :
    (conclude delivery tally).IsDeaf := by
  rw [conclude.eq_def]
  split
  · exact (isDeaf_onRuns (Run.isDeaf_save _ _)).bind fun _ => (Task.isDeaf_log _ _ _).bind fun _ =>
      Task.isDeaf_print _
  · split
    · exact Task.isDeaf_print _
    · split
      · exact Task.isDeaf_print _
      · exact .pure _

/-- Without changes nothing is recorded.  Hence a run that has changed nothing leaves no
record. -/
theorem on_conclude_of_nil {delivery : Delivery} (nothing : tally.changes = []) :
    (conclude delivery tally).on fs = (.ok (), fs) := by
  rw [conclude.eq_def, nothing]
  cases delivery <;> dsimp only <;> split <;> rfl

theorem on_conclude_dryRun : (conclude .dryRun tally).on fs = (.ok (), fs) := by
  rw [conclude.eq_def]
  dsimp only
  split
  · rfl
  · rfl

/-- With changes the run is recorded.  With the changes in the order of the tally,
whatever became of the files since. -/
theorem on_conclude_inPlace (something : tally.changes ≠ []) :
    (conclude (.inPlace recording) tally).on fs =
      ((((recording.run tally.changes).save recording.state).on fs).1.mapError .run,
        (((recording.run tally.changes).save recording.state).on fs).2) := by
  obtain ⟨change, changes, heq⟩ := List.exists_cons_of_ne_nil something
  rw [conclude.eq_def, heq]
  dsimp only
  rw [Task.on_bind _ fun _ => (Task.isDeaf_log _ _ _).bind fun _ => Task.isDeaf_print _, on_onRuns]
  rcases ((recording.run (change :: changes)).save recording.state).on fs with ⟨_ | _, _⟩ <;> rfl

/-- Files that could not be fixed make a run fail.  This comes after the recording, so a
run that has failed files can be undone all the same. -/
theorem isDeaf_settleFailures (tally : FixTally) : (settleFailures tally).IsDeaf := by
  rw [settleFailures]
  split
  · exact .throw _
  · exact .pure _

/-- The end of a run has three parts that are independent: the summary is only said, the
record is only written, and the failures only decide the outcome. -/
theorem isDeaf_settleRun (plan : FixPlan) (tally : FixTally) : (settleRun plan tally).IsDeaf := by
  have rest : (conclude plan.delivery tally >>= fun _ => settleFailures tally).IsDeaf :=
    (isDeaf_conclude _ _).bind fun _ => isDeaf_settleFailures tally
  rw [settleRun]
  dsimp only
  split
  · exact (Task.isDeaf_printText _).bind fun _ => rest
  · exact rest

/-- What the end of a run does to files is what recording does. -/
theorem on_settleRun (plan : FixPlan) (tally : FixTally) (fs : FileSystem) :
    (settleRun plan tally).on fs =
      match (conclude plan.delivery tally).on fs with
      | (.error reason, after) => (.error reason, after)
      | (.ok (), after) =>
          (if tally.failed = 0 then .ok () else .error (.filesNotFixed tally.failed), after) := by
  have rest : (conclude plan.delivery tally >>= fun _ => settleFailures tally).on fs =
      match (conclude plan.delivery tally).on fs with
      | (.error reason, after) => (.error reason, after)
      | (.ok (), after) =>
          (if tally.failed = 0 then .ok () else .error (.filesNotFixed tally.failed), after) := by
    rw [Task.on_bind _ fun _ => isDeaf_settleFailures tally]
    rcases (conclude plan.delivery tally).on fs with ⟨_ | _, after⟩
    · rfl
    · by_cases none : tally.failed = 0 <;> simp [settleFailures, none]
  rw [settleRun]
  dsimp only
  split
  · rw [Task.on_bind_of_ok _ (Task.on_printText fs _), rest]
    exact fun _ => (isDeaf_conclude _ _).bind fun _ => isDeaf_settleFailures tally
  · exact rest

/-- A run is its files and its end, unless it writes a single output, for which there
has to be just one file. -/
theorem fixFiles_eq (onFiles : ∀ output, plan.delivery ≠ .toFile output) :
    fixFiles plan files = fixEach plan {} files >>= settleRun plan := by
  obtain ⟨parse, config, format, summary, delivery⟩ := plan
  cases delivery with
  | toFile output => exact absurd rfl (onFiles output)
  | dryRun => rfl
  | inPlace recording => rfl

/-- The files of a run first, and then its end. -/
theorem on_fixFiles (onFiles : ∀ output, plan.delivery ≠ .toFile output) :
    (fixFiles plan files).on fs =
      match (fixEach plan {} files).on fs with
      | (.error reason, middle) => (.error reason, middle)
      | (.ok tally, middle) => (settleRun plan tally).on middle := by
  rw [fixFiles_eq onFiles, Task.on_bind _ (isDeaf_settleRun plan)]
  rcases (fixEach plan {} files).on fs with ⟨_ | _, _⟩ <;> rfl

theorem isDeaf_fixFiles (onFiles : ∀ output, plan.delivery ≠ .toFile output) :
    (fixFiles plan files).IsDeaf := by
  rw [fixFiles_eq onFiles]
  exact (isDeaf_fixEach _ _ _).bind (isDeaf_settleRun plan)

/-! ## Whole runs -/

/-- **Without output, fixing changes no files.**  There may be failures, but none of
them comes from a write. -/
theorem on_fixEach_dryRun (dryRun : plan.delivery = .dryRun) (tally : FixTally) :
    ∃ result, (fixEach plan tally files).on fs = (.ok result, fs) := by
  induction files generalizing tally with
  | nil => exact ⟨tally, rfl⟩
  | cons path rest ih =>
      have step : ∃ next, (fixFile plan tally path).on fs = (.ok next, fs) := by
        rcases on_fixFile_cases plan tally path fs with ⟨_, _, _, h⟩ | ⟨_, _, h⟩ | ⟨_, _, h⟩
        · exact ⟨_, h.trans (on_deliver_dryRun dryRun)⟩
        · exact ⟨_, h⟩
        · exact ⟨_, h⟩
      obtain ⟨next, hnext⟩ := step
      obtain ⟨result, hresult⟩ := ih next
      refine ⟨result, ?_⟩
      rw [fixEach, Task.on_bind_of_ok (isDeaf_fixEach plan · rest) hnext, hresult]

/-- **What a run that no write fails has come to**, before and after it is recorded.  It
gives the files in between a name, which later statements are about. -/
theorem exists_fixFiles (inPlace : plan.delivery = .inPlace recording)
    (isRunId : IsRunId recording.id) (apart : AreApart recording.state files fs)
    (writes : NoWriteFails plan recording files {} fs) :
    ∃ result middle, FilesFixed plan recording files fs middle {} result ∧
      failsToWrite (conclude plan.delivery result) middle = false ∧
      (fixFiles plan files).on fs = (settleRun plan result).on middle := by
  obtain ⟨result, middle, heach, fixed, records⟩ :=
    exists_filesFixed inPlace isRunId apart writes
  refine ⟨result, middle, fixed, records, ?_⟩
  rw [on_fixFiles (by simp [inPlace]), heach]

/-- **How a run with changes ends**: as recording it ends, or else with the files that
could not be fixed.  A failure of recording hides the failures of single files. -/
theorem exists_save_of_settleRun (inPlace : plan.delivery = .inPlace recording)
    (something : tally.changes ≠ [])
    (records : failsToWrite (conclude plan.delivery tally) fs = false)
    {outcome : Except CommandError Unit} (h : (settleRun plan tally).on fs = (outcome, after)) :
    ∃ saved, ((recording.run tally.changes).save recording.state).on fs = (saved, after) ∧
      (∀ reason, saved = .error reason →
        reason.isWriteFailure = false ∧ outcome = .error (.run reason)) ∧
      (saved = .ok () →
        outcome = if tally.failed = 0 then .ok () else .error (.filesNotFixed tally.failed)) := by
  rcases hsave : ((recording.run tally.changes).save recording.state).on fs with ⟨saved, final⟩
  have concluded : (conclude plan.delivery tally).on fs = (saved.mapError .run, final) := by
    rw [inPlace, on_conclude_inPlace something, hsave]
  rw [on_settleRun, concluded] at h
  cases saved with
  | error reason =>
      obtain ⟨rfl, rfl⟩ := Prod.mk.inj h
      rw [failsToWrite_of_error concluded] at records
      refine ⟨.error reason, rfl, fun failure same => ?_, nofun⟩
      obtain rfl := Except.error.inj same
      exact ⟨records, rfl⟩
  | ok done =>
      obtain ⟨rfl, rfl⟩ := Prod.mk.inj h
      exact ⟨.ok done, rfl, nofun, fun _ => rfl⟩

/-- **What recording a run does.**  An index that could not be read is left open here;
`Run.save_of_unread` is about that. -/
theorem on_settleRun_inPlace (inPlace : plan.delivery = .inPlace recording)
    (isRunId : IsRunId recording.id) (ready : IsReady recording.state fs)
    (something : tally.changes ≠ [])
    (records : failsToWrite (conclude plan.delivery tally) fs = false)
    {outcome : Except CommandError Unit} (h : (settleRun plan tally).on fs = (outcome, after)) :
    Changes (recordSlots (fs.placeOf recording.state) recording.id) ∅ fs after ∧
      Stored recording.state (recording.id ++ ".json")
        (recording.run tally.changes).toJson.pretty after ∧
      ∀ index, RunIndex.ofEntry (fs.entryAt? (fs.placeOf recording.state ++ ["runs.json"])) =
          .ok index →
        ((∃ reason, outcome = .error reason) ↔ tally.failed ≠ 0) ∧
          Stored recording.state "runs.json"
            (index.add (recording.run tally.changes)).toJson.pretty after := by
  have changes := Run.save_changes ready (recording.run tally.changes) isRunId
  obtain ⟨saved, hsave, fails, ends⟩ := exists_save_of_settleRun inPlace something records h
  obtain ⟨stored, listed⟩ :=
    Run.save_spec ready _ isRunId hsave fun reason failed => (fails reason failed).1
  rw [hsave] at changes
  refine ⟨changes, stored, fun index hindex => ?_⟩
  obtain ⟨done, list⟩ := listed index hindex
  refine ⟨?_, list⟩
  rw [ends done]
  by_cases none : tally.failed = 0 <;> simp [none]

/-- **What a run in place has done**, given the files before and after it and its
outcome.  The fields speak of the files before and after the whole run, and no longer of
what was in between. -/
structure FixedInPlace (plan : FixPlan) (recording : Recording) (files : List Path)
    (before : FileSystem) (outcome : Except CommandError Unit) (after : FileSystem) : Prop where
  /-- Every file with a fixed source holds it. -/
  rewritten : ∀ path ∈ files, ∀ source, hoisted? plan before path = some source →
    after.readText path = .ok source.after
  /-- Every other file outside the state directory is as it was. -/
  others : ∀ location, ¬ before.placeOf recording.state <+: location →
    (∀ path ∈ files, (hoisted? plan before path).isSome = true → location ≠ before.placeOf path) →
    after.fileAt? location = before.fileAt? location
  /-- Exactly the files with a fixed source have a change. -/
  recorded : ∀ path ∈ files,
    (changeIn? plan before path).isSome = (hoisted? plan before path).isSome
  /-- The run is saved with these changes in the order of the files, if there are any. -/
  saved : files.filterMap (changeIn? plan before) ≠ [] →
    after.readText (runFile recording.id recording.state) =
      .ok (recording.run (files.filterMap (changeIn? plan before))).toJson.pretty
  /-- Otherwise nothing is saved, and no file is written at all. -/
  unsaved : files.filterMap (changeIn? plan before) = [] → after = before
  /-- An index that can be read gets the run. -/
  listed : ∀ index,
    RunIndex.load recording.state (opened recording.state recording.id before) = .ok index →
    files.filterMap (changeIn? plan before) ≠ [] →
    after.readText (RunIndex.file recording.state) =
      .ok (index.add (recording.run (files.filterMap (changeIn? plan before)))).toJson.pretty
  /-- With an index that can be read, the run fails just when a file cannot be read or fixed. -/
  fails_iff : ∀ index,
    RunIndex.load recording.state (opened recording.state recording.id before) = .ok index →
    ((∃ reason, outcome = .error reason) ↔ ∃ path ∈ files, CannotFix plan before path)

/-- Just the files with a fixed source have a change.  A file without a canonical form
has none, hence the hypothesis. -/
theorem AreApart.isSome_changeIn? (apart : AreApart state files fs) (mem : path ∈ files) :
    (changeIn? plan fs path).isSome = (hoisted? plan fs path).isSome := by
  cases hoists : hoisted? plan fs path with
  | none =>
      rw [changeIn?_of_not_hoisted hoists]
      rfl
  | some source =>
      rw [changeIn?_of_hoisted hoists (apart.canonical mem)]
      rfl

namespace FilesFixed

variable (h : FilesFixed plan recording files before middle {} result)
include h

theorem stat_rewritten (mem : path ∈ files) {source : HoistedSource}
    (hoists : hoisted? plan before path = some source) :
    middle.stat path = .ok (before.placeOf path, .file (.text source.after) true) := by
  obtain ⟨location, writable, hstat⟩ := readText_eq_ok_iff.mp (readText_of_hoisted hoists)
  obtain ⟨located, -, demands⟩ := stat_eq_ok_iff.mp hstat
  obtain rfl := eq_placeOf_of_locate located
  exact stat_eq_ok_iff.mpr ⟨h.changes_univ.locate located, h.rewritten path mem source hoists,
    Or.inr (demands.resolve_left (by simp))⟩

section

variable (apart : AreApart recording.state files before)
  (recorded : Changes (recordSlots (before.placeOf recording.state) recording.id) ∅ middle after)
include recorded

include apart in
/-- A rewritten file holds its fixed source when the run has been recorded.  Recording
writes in the state directory only. -/
theorem readText_rewritten (mem : path ∈ files) {source : HoistedSource}
    (hoists : hoisted? plan before path = some source) :
    after.readText path = .ok source.after := by
  refine readText_eq_ok_iff.mpr ⟨_, _, recorded.stat (h.stat_rewritten mem hoists) fun there => ?_⟩
  exact apart.outside path mem (prefix_of_mem_recordSlots there)

/-- Any other file outside the state directory is as it was.  Directories may be new
there, but no file is. -/
theorem fileAt?_other {location : Location}
    (outside : ¬ before.placeOf recording.state <+: location)
    (other : ∀ path ∈ files, (hoisted? plan before path).isSome = true →
      location ≠ before.placeOf path) :
    after.fileAt? location = before.fileAt? location := by
  rw [recorded.fileAt?_eq fun there => outside (prefix_of_mem_recordSlots there)]
  refine h.changes_univ.fileAt?_eq ?_
  rintro ⟨path, mem, change, hchange, rfl | rfl⟩
  · have hoists : (hoisted? plan before path).isSome = true := by
      cases hnone : hoisted? plan before path with
      | none => simp [changeIn?_of_not_hoisted hnone] at hchange
      | some source => rfl
    exact other path mem hoists rfl
  · exact outside (List.prefix_append _ _)

end

/-- The index is not touched before the run is recorded.  So the index that counts is
the one from before the run. -/
theorem load_opened (apart : AreApart recording.state files before)
    (something : files.filterMap (changeIn? plan before) ≠ []) (isRunId : IsRunId recording.id)
    {text : String} (stored : Stored recording.state (recording.id ++ ".json") text after) :
    RunIndex.load recording.state (opened recording.state recording.id before) =
      RunIndex.ofEntry (middle.entryAt? (middle.placeOf recording.state ++ ["runs.json"])) := by
  obtain ⟨ready, changes⟩ := h.opening something
  obtain ⟨_, followable, short, _⟩ :=
    (locate_child_iff isPlainName_index).mp (stored.locate_index isRunId)
  have located := (locate_child_iff isPlainName_index).mpr
    ⟨(ready.of_child isRunId.isPlainName).leads, followable, short, rfl⟩
  rw [RunIndex.load_eq_ofEntry located, changes.placeOf, changes.entryAt?_eq ?_ (Set.notMem_empty _)]
  rw [(opened_changes _ _ before).placeOf]
  rintro ⟨path, mem, change, _, same | same⟩
  · exact apart.outside path mem (same ▸ List.prefix_append _ _)
  · simp at same

/-- **What a whole run has done**, from what has become of its files and from its
record.  Nothing new is proved about files here: it turns locations into paths and adds
the record. -/
theorem fixedInPlace (apart : AreApart recording.state files before)
    (inPlace : plan.delivery = .inPlace recording) (isRunId : IsRunId recording.id)
    (records : failsToWrite (conclude plan.delivery result) middle = false)
    {outcome : Except CommandError Unit}
    (hrun : (settleRun plan result).on middle = (outcome, after)) :
    FixedInPlace plan recording files before outcome after := by
  have hchanges : result.changes = files.filterMap (changeIn? plan before) := by
    simpa using h.changes_eq
  have hfailed : result.failed ≠ 0 ↔ ∃ path ∈ files, CannotFix plan before path := by
    simpa using h.failed_iff
  by_cases nothing : files.filterMap (changeIn? plan before) = []
  · obtain rfl := h.unchanged nothing
    rw [on_settleRun, on_conclude_of_nil (hchanges.trans nothing)] at hrun
    obtain ⟨rfl, rfl⟩ := Prod.mk.inj hrun
    refine ⟨fun path mem source => h.readText_rewritten apart (.refl _) mem,
      fun location => h.fileAt?_other (.refl _), fun path => apart.isSome_changeIn?,
      fun something => absurd nothing something, fun _ => rfl,
      fun _ _ something => absurd nothing something, fun _ _ => ?_⟩
    rw [← hfailed]
    by_cases none : result.failed = 0 <;> simp [none]
  · have ready : IsReady recording.state middle := (h.ready nothing).of_child isRunId.isPlainName
    obtain ⟨recorded, stored, listed⟩ :=
      on_settleRun_inPlace inPlace isRunId ready (hchanges ▸ nothing) records hrun
    have same := h.load_opened apart nothing isRunId stored
    rw [h.changes_univ.placeOf] at recorded
    rw [← same, hchanges] at listed
    rw [hchanges] at stored
    refine ⟨fun path mem source => h.readText_rewritten apart recorded mem,
      fun location => h.fileAt?_other recorded, fun path => apart.isSome_changeIn?,
      fun _ => stored.readText isRunId.isPlainName_file, fun empty => absurd empty nothing,
      fun index hindex _ => (listed index hindex).2.readText isPlainName_index,
      fun index hindex => (listed index hindex).1.trans hfailed⟩

end FilesFixed

/-! ## A specimen -/

end Command

namespace Specimen

open Command FileSystem

/-- The editor after the fixes. -/
def hoistedEditor : Editor where
  content := hoisted
  dialect := .typeScript
  tree := .ofRaw hoisted hoistedRaw false

/-- The only pass hoists the literal. -/
theorem accepted_editor : (editor.chosen true).accepted = [
    { aliasName := "AType"
      declaration := .insert 0 "type AType = \x7b\n\n\n\x7d;\n\n"
      reference := .replace 7 12 "AType" }] := by
  decide +kernel

theorem pass_eq : Editor.pass parser editor (editor.chosen true) = .ok hoistedEditor := by
  have parsed : parser hoisted editor.dialect = .ok (.ofRaw hoisted hoistedRaw false) := by
    rw [parser, if_neg (by decide), if_pos rfl]
  refine Editor.pass_of_inOrder _ ?sorted ?swept parsed rfl
  all_goals rw [FixSelection.edits, accepted_editor]
  case sorted => decide
  case swept => decide +kernel

/-- The source before and after its fixes. -/
def hoistedSource : HoistedSource where
  before := source
  after := hoisted
  outcome := { applied := 1, passes := 1, aliases := ["AType"], remaining := [] }

/-- There is nothing left to fix. -/
theorem accepted_hoistedEditor : (hoistedEditor.chosen true).accepted = [] := by decide +kernel

theorem result_fixAll :
    (editor.fixAll parser true 10).result = (hoistedEditor, .ok hoistedSource.outcome) := by
  have some : (editor.chosen true).accepted ≠ [] := by simp [accepted_editor]
  have left : hoistedEditor.findings true = [] := by
    rw [← List.isEmpty_iff]
    decide +kernel
  have progress : Progress.none.add (editor.chosen true) = hoistedSource.outcome.toProgress := by
    decide +kernel
  rw [Editor.fixAll_of_not_hasErrors parser rfl, Editor.result_fixFrom_of_ok some pass_eq,
    Editor.result_fixFrom_of_nil accepted_hoistedEditor, left, progress]
  rfl

/-- A run on the specimen. -/
def recording : Recording where
  state := { text := "/s" }
  id := "0a1b2c3"
  time := { seconds := 0, nanos := 0 }
  command := "ts-hoist fix --paths w --apply"

/-- How the run fixes files. -/
def plan : FixPlan where
  parse := parser
  config := {}
  format := .lines
  summary := false
  delivery := .inPlace recording

/-- A directory with the specimen, a file that is no text, and the specimen again. -/
def files : FileSystem where
  workingDirectory := ["w"]
  entries := [(["w"], .directory), (["w", "a.ts"], .file (.text source) true),
    (["w", "b.ts"], .file (.binary [255]) true), (["w", "c.ts"], .file (.text source) true)]

/-- The specimen is hoisted wherever it is. -/
theorem hoisted?_eq {fs : FileSystem} {path : Path} (known : path.dialect? = some .typeScript)
    (read : fs.readText path = .ok source) : hoisted? plan fs path = some hoistedSource := by
  have new : Editor.new plan.parse source .typeScript = .ok editor := new_eq_ok
  exact hoisted?_of_result known read new rfl result_fixAll

/-- The path of the specimen. -/
def path : Path := { text := "a.ts" }

/-- The path of the file that is no text. -/
def otherPath : Path := { text := "b.ts" }

theorem areApart : AreApart recording.state [path, otherPath] files where
  named := by
    simp only [List.mem_cons, List.not_mem_nil, or_false, forall_eq_or_imp, forall_eq]
    exact ⟨⟨{ text := "/w/a.ts" }, by decide⟩, ⟨{ text := "/w/b.ts" }, by decide⟩⟩
  distinct := by decide
  outside := by decide

theorem hoisted?_path : hoisted? plan files path = some hoistedSource :=
  hoisted?_eq (by decide) (by decide)

theorem dialect?_otherPath : otherPath.dialect? = some .typeScript := by decide

theorem cannotFix_otherPath : CannotFix plan files otherPath :=
  have unread : files.readText otherPath = .error .notText := by decide
  .unreadable dialect?_otherPath unread

/-- The path of the specimen from the root. -/
def absolute : Path := { text := "/w/a.ts" }

/-- The files with the directory of the run. -/
def made : FileSystem :=
  (files.put ["s"] .directory).put ["s", "0a1b2c3"] .directory

/-- The files with the backup of the specimen. -/
def backedUp : FileSystem :=
  made.put ["s", "0a1b2c3", backupName absolute] (.file (.text source) true)

/-- The files once the specimen has been rewritten. -/
def rewritten : FileSystem := backedUp.put ["w", "a.ts"] (.file (.text hoisted) true)

theorem makeDirectories_files :
    files.makeDirectories (recording.state.child recording.id) = (made, .ok ()) := by
  decide

/-- A backup can be located in a directory with a short path.  The name of the backup is
not evaluated: its length is all that matters.  Evaluating it would mean to compute a
digest. -/
theorem locate_backup {fs : FileSystem} {directory given : Path} (leads : fs.Leads directory)
    (short : directory.text.utf8ByteSize < 100) (clean : '\x00' ∉ directory.text.toList)
    (ext : given.extension? = some "ts") :
    fs.locate (directory.child (backupName given)) =
      .ok (fs.placeOf directory ++ [backupName given]) := by
  have size := utf8ByteSize_contentDigest (.text given.text)
  have free := nul_not_mem_contentDigest (.text given.text)
  have plain := isPlainName_backupName given
  have name : backupName given = contentDigest (.text given.text) ++ "." ++ "ts" := by
    rw [backupName, ext]
  have length : (backupName given).utf8ByteSize = 67 := by
    simp only [name, String.utf8ByteSize_append, size]
    decide
  have noNul : '\x00' ∉ (backupName given).toList := by simp [name, free]
  refine (locate_child_iff plain).mpr ⟨leads, ?_, ?_, rfl⟩
  · rw [isFollowable, Path.child_text _ plain]
    have slash : "/".utf8ByteSize = 1 := by decide
    split <;> simp [plain.ne_empty, clean, noNul, String.utf8ByteSize_append, length, pathLimit] <;>
      omega
  · rw [length]
    decide

/-- A backup can be written in a directory with a short path, if nothing has its name yet or a file that
can be written. -/
theorem write_backup {fs : FileSystem} {directory given : Path} {place : Location} {content : Content}
    (leads : fs.Leads directory) (short : directory.text.utf8ByteSize < 100)
    (clean : '\x00' ∉ directory.text.toList) (ext : given.extension? = some "ts")
    (hplace : fs.placeOf directory = place)
    (free : fs.entryAt? (place ++ [backupName given]) = none ∨
      ∃ old, fs.entryAt? (place ++ [backupName given]) = some (.file old true)) :
    fs.write (directory.child (backupName given)) content =
      .ok (fs.put (place ++ [backupName given]) (.file content true)) := by
  subst hplace
  exact write_eq_ok_iff.mpr ⟨_, locate_backup leads short clean ext,
    demandsDirectory_child _ (isPlainName_backupName given), free, rfl⟩

/-- A file is rewritten where its backup can be written. -/
theorem on_rewriteFile_of_free {recording : Recording} {format : FixFormat} {fs made : FileSystem}
    {given absolute : Path} {location place : Location} {found : HoistedSource}
    (hstat : fs.stat given = .ok (location, .file (.text found.before) true))
    (canonical : pathOf location = absolute)
    (opens : fs.makeDirectories (recording.state.child recording.id) = (made, .ok ()))
    (leads : made.Leads (recording.state.child recording.id))
    (short : (recording.state.child recording.id).text.utf8ByteSize < 100)
    (clean : '\x00' ∉ (recording.state.child recording.id).text.toList)
    (ext : absolute.extension? = some "ts")
    (hplace : made.placeOf (recording.state.child recording.id) = place)
    (free : made.entryAt? (place ++ [backupName absolute]) = none ∨
      ∃ old, made.entryAt? (place ++ [backupName absolute]) = some (.file old true))
    (apart : location ≠ place ++ [backupName absolute]) :
    (rewriteFile recording format given found).on fs =
      (.ok (changeOf absolute found),
        (made.put (place ++ [backupName absolute]) (.file (.text found.before) true)).put location
          (.file (.text found.after) true)) := by
  have first := makeDirectories_changes fs (recording.state.child recording.id)
  rw [opens] at first
  have clear : made.entryAt? (place ++ [backupName absolute]) ≠ some .directory := by
    rcases free with none | ⟨old, held⟩ <;> simp_all
  have second : Changes {place ++ [backupName absolute]} ∅ made
      (made.put (place ++ [backupName absolute]) (.file (.text found.before) true)) :=
    put_file_changes clear _ _
  have still := second.stat (first.stat hstat (Set.notMem_empty _)) apart
  exact on_rewriteFile_of_writes hstat canonical opens (write_backup leads short clean ext hplace free)
    ((write_of_stat still).trans (if_pos rfl))

theorem on_rewriteFile_path : (rewriteFile recording plan.format path hoistedSource).on files =
    (.ok (changeOf absolute hoistedSource), rewritten) := by
  have hstat : files.stat path = .ok (["w", "a.ts"], .file (.text source) true) := by decide
  have place : made.placeOf (recording.state.child recording.id) = ["s", "0a1b2c3"] := by decide
  exact on_rewriteFile_of_free hstat (by decide) makeDirectories_files ⟨by decide, by decide⟩
    (by decide) (by decide) (by decide) place (.inl (by decide)) (by decide)

theorem noWriteFails : NoWriteFails plan recording [path, otherPath] {} files := by
  have inPlace : plan.delivery = .inPlace recording := rfl
  have step := on_fixFile_of_hoisted {} hoisted?_path
  rw [on_deliver_of_rewriteFile inPlace on_rewriteFile_path] at step
  refine .cons (fun found hfound => ?_) step ?_
  · obtain rfl := Option.some.inj (hoisted?_path.symm.trans hfound)
    rw [failsToWrite, on_rewriteFile_path]
  · have unread : rewritten.readText otherPath = .error .notText := by decide
    have unreadable : CannotFix plan rewritten otherPath := .unreadable dialect?_otherPath unread
    have unfixable := on_fixFile_of_cannotFix
      (FixTally.record (FixTally.count {} plan.format hoistedSource)
        (changeOf absolute hoistedSource)) unreadable
    refine .cons (fun found hfound => ?_) unfixable.2 (.nil ?_)
    · simp [unfixable.1] at hfound
    · decide

end Specimen

namespace Command

/-- **A run changes and records exactly what it should.**  A dry run changes no files.  A run in place
on files that are apart, with no write failing, puts into every file with a fixed source just that
source and leaves all other files outside the state directory as they were; its record has the
changes of the rewritten files in order, and is written if there are any; and it fails just when a
file cannot be read or fixed. -/
theorem fixFiles_changes_and_records (plan : FixPlan) (files : List Path) (world : World) :
    (plan.delivery = .dryRun → ((fixFiles plan files).upshot world).2 = world.files) ∧
      ∀ recording, plan.delivery = .inPlace recording → IsRunId recording.id →
        AreApart recording.state files world.files →
        NoWriteFails plan recording files {} world.files →
        FixedInPlace plan recording files world.files ((fixFiles plan files).upshot world).1
          ((fixFiles plan files).upshot world).2 := by
  refine ⟨fun dryRun => ?_, fun recording inPlace isRunId apart writes => ?_⟩
  · obtain ⟨result, heach⟩ : ∃ result,
        (fixEach plan {} files).on world.files = (.ok result, world.files) :=
      on_fixEach_dryRun dryRun {}
    rw [isDeaf_fixFiles (by simp [dryRun]), on_fixFiles (by simp [dryRun]), heach]
    dsimp only
    rw [on_settleRun, dryRun, on_conclude_dryRun]
  · obtain ⟨result, middle, fixed, records, hrun⟩ :=
      exists_fixFiles inPlace isRunId apart writes
    rw [isDeaf_fixFiles (by simp [inPlace]), hrun]
    exact fixed.fixedInPlace apart inPlace isRunId records rfl

/-- The specimen is rewritten, and the run fails because of the other file. -/
theorem fixFiles_changes_and_records_specimen :
    ((fixFiles Specimen.plan [Specimen.path, Specimen.otherPath]).upshot
        { files := Specimen.files }).2.readText Specimen.path = .ok Specimen.hoisted ∧
      ∃ reason, ((fixFiles Specimen.plan [Specimen.path, Specimen.otherPath]).upshot
        { files := Specimen.files }).1 = .error reason := by
  have run := (fixFiles_changes_and_records Specimen.plan [Specimen.path, Specimen.otherPath]
    { files := Specimen.files }).2 Specimen.recording rfl (by decide) Specimen.areApart
    Specimen.noWriteFails
  refine ⟨run.rewritten _ (by simp) _ Specimen.hoisted?_path, ?_⟩
  refine (run.fails_iff .empty (by decide)).mpr ⟨_, by simp, Specimen.cannotFix_otherPath⟩

end Command

end AliasHoist
