import AliasHoist.Proofs.Runs.Sparing

/-!
# Undoing a run whose sources are at hand

A run whose sources can be written and whose backups are kept can be undone, whatever its sources hold; that
is looked at only when undoing is not forced.

## Main Definitions

* `ReadsAsBefore`: a file reads as before;
* `Restoration.IsAtHand`: a source can be written, and the content from before is kept;
* `LeftAlone`: nothing but the locks has changed in the files of a run.

## Main Statements

* `isAsLeft_iff_of_stat`: when a file is as a run left it;
* `sourcesApart_of_atHand`: sources at hand are apart;
* `exists_revertRun_of_atHand`: undoing a run whose sources are at hand;
* `LeftAlone.stored`, `LeftAlone.keepsBackup`: what a run keeps is there as long as it is left alone.
-/

namespace AliasHoist

open FileSystem

variable {fs later : FileSystem} {state : Path} {id name text listing : String} {run : Run}
  {index : RunIndex} {change : FileChange} {item : Restoration} {items : List Restoration}
  {force : Bool}

/-- **A file reads as before.**  Both readings have to succeed; a file that cannot be
read is not one that was brought back. -/
def ReadsAsBefore (path : Path) (before after : FileSystem) : Prop :=
  ∃ text, before.readText path = .ok text ∧ after.readText path = .ok text

/-- A file that is there is as a run left it just when it has the digest that was
recorded.  The check of a source thus looks at nothing but its content. -/
theorem isAsLeft_iff_of_stat {location : Location} {content : Content} {writable : Bool}
    (h : fs.stat change.path = .ok (location, .file content writable)) :
    change.IsAsLeft fs ↔ contentDigest content = change.hashAfter := by
  have there : fs.exists? change.path = true := exists?_eq_true_iff.mpr ⟨_, _, h⟩
  have read : fs.read change.path = .ok content := read_eq_ok_iff.mpr ⟨_, _, h⟩
  have digest : fileDigest change.path fs = .ok (contentDigest content) := by rw [fileDigest, read]
  constructor
  · intro asLeft
    exact Except.ok.inj (digest.symm.trans asLeft.digest)
  · intro same
    exact ⟨there, same ▸ digest⟩

/-! ## Sources that are at hand -/

/-- **A source is at hand**: it is a file outside the state directory that can be
written, and the content from before is kept.  Whether it is as the run left it is left
open.  So it covers sources that were edited, or never written, as long as they can be
written now. -/
structure Restoration.IsAtHand (state : Path) (id : String) (item : Restoration) (fs : FileSystem) :
    Prop where
  found : ∃ content, fs.stat item.change.path = .ok (item.location, .file content true)
  outside : ¬ fs.placeOf state <+: item.location
  plain : IsPlainName item.change.backup
  kept : KeepsBackup state id item.change.backup item.before fs

namespace Restoration.IsAtHand

variable (h : item.IsAtHand state id fs)
include h

/-- The path of the source leads to its location. -/
theorem placeOf_path : fs.placeOf item.change.path = item.location := by
  obtain ⟨content, found⟩ := h.found
  exact (eq_placeOf_of_stat found).symm

/-- The backup is in the directory of the run. -/
theorem placeOf_backupFile :
    fs.placeOf (item.change.backupFile id state) = fs.placeOf state ++ [id, item.change.backup] :=
  (eq_placeOf_of_locate h.kept.located).symm

/-- Bringing the source back gives it the content that was kept. -/
theorem restoredText? : item.change.restoredText? id state fs = some item.before := by
  obtain ⟨content, found⟩ := h.found
  exact FileChange.restoredText?_eq_some_iff.mpr
    ⟨h.kept.readText h.plain, _, (write_of_stat found).trans (if_pos rfl)⟩

end Restoration.IsAtHand

/-- Sources at hand that are in different places are apart.  Sources are outside the
state directory and backups inside, so only the sources can meet each other. -/
theorem sourcesApart_of_atHand (atHand : ∀ item ∈ items, item.IsAtHand state id fs)
    (distinct : items.Pairwise fun a b => a.location ≠ b.location) :
    SourcesApart state id (items.map (·.change)) fs where
  distinct := by
    rw [List.pairwise_map]
    refine distinct.imp_of_mem fun {a b} ha hb ne => ?_
    rwa [(atHand a ha).placeOf_path, (atHand b hb).placeOf_path]
  backups := by
    rw [List.pairwise_map]
    refine distinct.imp_of_mem fun {a b} ha hb _ same => ?_
    rw [(atHand a ha).placeOf_path, (atHand b hb).placeOf_backupFile] at same
    exact (atHand a ha).outside (same ▸ List.prefix_append _ _)
  records change mem there := by
    obtain ⟨item, hitem, rfl⟩ := List.mem_map.mp mem
    rw [(atHand item hitem).placeOf_path] at there
    exact (atHand item hitem).outside (prefix_of_mem_recordSlots there)

/-- **A run whose sources are at hand is undone** when it can be undone, and then they
hold what they held before.  Forced or not: the hypothesis on `checkRevertible` is the
only place where the force comes in. -/
theorem exists_revertRun_of_atHand (hitems : run.changes = items.map (·.change))
    (atHand : ∀ item ∈ items, item.IsAtHand state run.id fs)
    (distinct : items.Pairwise fun a b => a.location ≠ b.location)
    (revertible : checkRevertible run run.id force fs = .ok ()) (isRunId : IsRunId run.id)
    (storable : run.isStorable = true)
    (own : Stored state (run.id ++ ".json") run.toJson.pretty fs)
    (listed : Stored state "runs.json" listing fs)
    (read : Json.decodeText (RunIndex.decode .text) listing = .ok index) :
    ∃ after, (revertRun run.id force state).on fs = (.ok (), after) ∧
      ∀ item ∈ items, after.readText item.change.path = .ok item.before := by
  have apart := sourcesApart_of_atHand atHand distinct
  rw [← hitems] at apart
  obtain ⟨middle, restored, back⟩ := exists_restoreAll_of_all apart fun change mem => by
    rw [hitems] at mem
    obtain ⟨item, hitem, rfl⟩ := List.mem_map.mp mem
    exact ⟨item.before, (atHand item hitem).restoredText?⟩
  have untouched : Disjoint (recordSlots (fs.placeOf state) run.id)
      {location | ∃ change ∈ run.changes, location = fs.placeOf change.path} := by
    rw [Set.disjoint_left]
    rintro location there ⟨change, mem, rfl⟩
    exact apart.records change mem there
  obtain ⟨after, undone, recorded, -⟩ := exists_revertRun_of_restored
    (Run.load_of_stored isRunId storable own) revertible restored isRunId
    (own.of_changes back.changes (untouched.mono_left Set.subset_union_left) (Set.notMem_empty _))
    (listed.of_changes back.changes (untouched.mono_left Set.subset_union_right)
      (Set.notMem_empty _)) read
  refine ⟨after, undone, fun item hitem => ?_⟩
  have mem : item.change ∈ run.changes := hitems ▸ List.mem_map_of_mem hitem
  obtain ⟨text, kept, held⟩ := back.readText mem
  obtain rfl : item.before = text := Except.ok.inj
    (((atHand item hitem).kept.readText (atHand item hitem).plain).symm.trans kept)
  rw [back.changes.placeOf] at recorded
  refine (recorded.readText_eq_ok_iff fun there => ?_).mpr held
  rw [back.changes.placeOf] at there
  exact apart.records _ mem there

/-! ## Files that are left alone -/

/-- **Nothing but the locks has changed in the files of a run**: its record and its
backups are as they were, and so are its sources, which can all be written now.  Other
files may have changed.  It is what may happen between a run and its undoing, with the
sources unlocked. -/
structure LeftAlone (state : Path) (run : Run) (fs later : FileSystem) : Prop where
  workingDirectory_eq : later.workingDirectory = fs.workingDirectory
  directory_stays : ∀ {location : Location},
    fs.entryAt? location = some .directory → later.entryAt? location = some .directory
  records : ∀ location ∈ recordSlots (fs.placeOf state) run.id,
    later.entryAt? location = fs.entryAt? location
  backups : ∀ change ∈ run.changes,
    later.entryAt? (fs.placeOf (change.backupFile run.id state)) =
      fs.entryAt? (fs.placeOf (change.backupFile run.id state))
  sources : ∀ change ∈ run.changes, ∀ location content writable,
    fs.stat change.path = .ok (location, .file content writable) →
      later.entryAt? location = some (.file content true)

namespace LeftAlone

variable (h : LeftAlone state run fs later)
include h

/-- As a change it is one that may touch everything. -/
theorem changes : Changes Set.univ Set.univ fs later where
  workingDirectory_eq := h.workingDirectory_eq
  directory_stays := h.directory_stays
  directory_made _ := .inr trivial
  fileAt?_eq touched := absurd trivial touched

/-- The records are stored as they were. -/
theorem stored (record : slot (fs.placeOf state) name ⊆ recordSlots (fs.placeOf state) run.id)
    (stored : Stored state name text fs) : Stored state name text later := by
  constructor
  · rw [h.changes.placeOf]
    exact h.changes.locate stored.located
  · rw [h.changes.placeOf]
    exact h.changes.locate stored.besideLocated
  · rw [h.changes.placeOf, h.records _ (record (.inl rfl))]
    exact stored.held
  · rw [h.changes.placeOf, h.records _ (record (.inr rfl))]
    exact stored.besideFree

/-- The backups are kept as they were. -/
theorem keepsBackup (mem : change ∈ run.changes)
    (kept : KeepsBackup state run.id change.backup text fs) :
    KeepsBackup state run.id change.backup text later := by
  have same := h.backups change mem
  rw [FileChange.backupFile, ← eq_placeOf_of_locate kept.located] at same
  constructor
  · rw [h.changes.placeOf]
    exact h.changes.locate kept.located
  · rw [h.changes.placeOf, same]
    exact kept.held

end LeftAlone

end AliasHoist
