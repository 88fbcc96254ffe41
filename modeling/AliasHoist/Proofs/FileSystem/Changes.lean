import AliasHoist.Proofs.FileSystem.Locating
import Mathlib.Data.Set.BooleanAlgebra
import Mathlib.Data.Set.Insert
import Mathlib.Order.CompletePartialOrder

/-!
# What operations change

Every operation of a run either writes a file or makes directories.  This module says what that does
to a file system as a whole: which files differ, which directories are new, and that no directory goes
away, so that paths keep leading where they led.

## Main Definitions

* `FileSystem.fileAt?`: the file at a location;
* `Changes`: files differ at some locations only, directories are new at some locations only, and no
  directory is gone.

## Main Statements

* `Changes.trans`: changes add up;
* `Changes.locate`, `Changes.stat`: what a path names stays what it was, away from the changes;
* `Changes.symm`: changes of files only, seen from the other side;
* `write_eq_ok_iff`, `rename_file_eq_ok_iff`: the operations on files;
* `makeDirectories_changes`, `makeDirectories_child_changes`: making directories;
* `makeDirectories_again`: what has been made need not be made again.
-/

namespace AliasHoist

namespace FileSystem

/-- The file at a location, with whether it is writable.  Directories count as nothing
here, which lets files and directories be followed apart. -/
def fileAt? (fs : FileSystem) (location : Location) : Option (Content × Bool) :=
  match fs.entryAt? location with
  | some (.file content writable) => some (content, writable)
  | _ => none

variable {fs : FileSystem}

/-- A file is there just when its entry is one. -/
theorem fileAt?_eq_some_iff {location : Location} {content : Content} {writable : Bool} :
    fs.fileAt? location = some (content, writable) ↔
      fs.entryAt? location = some (.file content writable) := by
  rw [fileAt?]
  cases fs.entryAt? location with
  | none => simp
  | some entry => cases entry <;> simp

/-- What is neither a file nor a directory is not there.  So a location is described
completely by its file and by whether it is a directory. -/
theorem entryAt?_eq_none_iff {location : Location} :
    fs.entryAt? location = none ↔
      fs.fileAt? location = none ∧ fs.entryAt? location ≠ some .directory := by
  rw [fileAt?]
  cases fs.entryAt? location with
  | none => simp
  | some entry => cases entry <;> simp

/-- The root is always a directory. -/
@[simp] theorem entryAt?_nil : fs.entryAt? [] = some .directory := by simp [entryAt?]

/-- What is no directory is not the root. -/
theorem ne_nil_of_entryAt?_ne {location : Location}
    (h : fs.entryAt? location ≠ some .directory) : location ≠ [] := by
  rintro rfl
  simp at h

/-- Writing does not move the working directory. -/
@[simp] theorem put_workingDirectory (location : Location) (entry : Entry) :
    (fs.put location entry).workingDirectory = fs.workingDirectory := rfl

/-- Neither does removing. -/
@[simp] theorem erase_workingDirectory (location : Location) :
    (fs.erase location).workingDirectory = fs.workingDirectory := rfl

/-- What has been removed is not there, unless it is the root. -/
theorem entryAt?_erase_self {location : Location} (h : location ≠ []) :
    (fs.erase location).entryAt? location = none := by
  simp only [entryAt?, h, if_false, erase]
  rw [List.lookup_eq_none_iff]
  intro entry mem
  have kept := (List.mem_filter.mp mem).2
  rw [bne_iff_ne] at kept
  simpa using Ne.symm kept

/-! ## Reading -/

/-- They name the same, away from what was written. -/
theorem stat_eq_ok_iff {path : Path} {location : Location} {entry : Entry} :
    fs.stat path = .ok (location, entry) ↔
      fs.locate path = .ok location ∧ fs.entryAt? location = some entry ∧
        (entry = .directory ∨ demandsDirectory path = false) := by
  rw [stat]
  cases fs.locate path with
  | error reason => simp [bind, Except.bind]
  | ok found =>
      simp only [bind, Except.bind, Except.ok.injEq]
      cases hentry : fs.entryAt? found with
      | none =>
          simp only [reduceCtorEq, false_iff, not_and]
          rintro rfl
          simp [hentry]
      | some there =>
          cases there with
          | directory =>
              simp only [Except.ok.injEq, Prod.mk.injEq]
              constructor
              · rintro ⟨rfl, rfl⟩
                exact ⟨rfl, hentry, Or.inl rfl⟩
              · rintro ⟨rfl, hfound, _⟩
                exact ⟨rfl, Option.some.inj (hentry.symm.trans hfound)⟩
          | file content writable =>
              dsimp only
              constructor
              · intro h
                split at h
                · simp at h
                · rename_i hdemands
                  obtain ⟨rfl, rfl⟩ := Prod.mk.inj (Except.ok.inj h)
                  exact ⟨rfl, hentry, Or.inr (by simpa using hdemands)⟩
              · rintro ⟨rfl, hfound, hdemands⟩
                obtain rfl := Option.some.inj (hentry.symm.trans hfound)
                simp_all

/-- A path that names something names what is at its location.  The converse fails, as a
path may be located where there is nothing. -/
theorem locate_of_stat {path : Path} {location : Location} {entry : Entry}
    (h : fs.stat path = .ok (location, entry)) : fs.locate path = .ok location :=
  (stat_eq_ok_iff.mp h).1

/-- What a path names is at its place.  So two paths of one place name the same, if they
name anything. -/
theorem eq_placeOf_of_stat {path : Path} {location : Location} {entry : Entry}
    (h : fs.stat path = .ok (location, entry)) : location = fs.placeOf path :=
  eq_placeOf_of_locate (locate_of_stat h)

/-- The canonical form of a path is made from its location, so paths of one location
share it. -/
theorem canonical_eq_ok_iff {path absolute : Path} :
    fs.canonical path = .ok absolute ↔
      ∃ location entry, fs.stat path = .ok (location, entry) ∧ absolute = pathOf location := by
  rw [canonical]
  cases fs.stat path with
  | error reason => simp [bind, Except.bind]
  | ok found =>
      obtain ⟨location, entry⟩ := found
      simp [bind, Except.bind, pure, Except.pure, eq_comm]

/-- A path is read where it names a file. -/
theorem read_eq_ok_iff {path : Path} {content : Content} :
    fs.read path = .ok content ↔
      ∃ location writable, fs.stat path = .ok (location, .file content writable) := by
  rw [read]
  cases fs.stat path with
  | error reason => simp [bind, Except.bind]
  | ok found =>
      obtain ⟨location, entry⟩ := found
      cases entry <;> simp [bind, Except.bind]

/-- A path is read as a text where it names a file that holds one.  Unlike
`Changes.readText` it needs no file to be there beforehand. -/
theorem readText_eq_ok_iff {path : Path} {text : String} :
    fs.readText path = .ok text ↔
      ∃ location writable, fs.stat path = .ok (location, .file (.text text) writable) := by
  rw [← read_eq_ok_iff, readText]
  cases fs.read path with
  | error reason => simp [bind, Except.bind]
  | ok content => cases content <;> simp [bind, Except.bind]

/-- There is something under a path just when it names something. -/
theorem exists?_eq_true_iff {path : Path} :
    fs.exists? path = true ↔ ∃ location entry, fs.stat path = .ok (location, entry) := by
  rw [exists?]
  cases fs.stat path with
  | error reason => simp [Except.toOption]
  | ok found =>
      obtain ⟨location, entry⟩ := found
      simp [Except.toOption]

/-- A path that names a directory is found to be one. -/
theorem isDirectory_of_stat {path : Path} {location : Location}
    (h : fs.stat path = .ok (location, .directory)) : fs.isDirectory path = true := by
  rw [isDirectory, h]

/-- And only such a path is. -/
theorem isDirectory_eq_true_iff {path : Path} :
    fs.isDirectory path = true ↔ ∃ location, fs.stat path = .ok (location, .directory) := by
  refine ⟨fun h => ?_, fun ⟨location, found⟩ => isDirectory_of_stat found⟩
  rw [isDirectory] at h
  split at h
  · exact ⟨_, ‹_›⟩
  · contradiction

end FileSystem

open FileSystem

/-! ## Changes -/

/-- **The difference between two file systems**: files differ at the written locations
only, new directories are at the made locations only, and no directory is gone.  That no
directory is gone makes paths stable, and it is true of fixing files and of undoing
runs; forgetting runs is described by `Keeps` instead. -/
structure Changes (written made : Set Location) (before after : FileSystem) : Prop where
  workingDirectory_eq : after.workingDirectory = before.workingDirectory
  directory_stays : ∀ {location : Location},
    before.entryAt? location = some .directory → after.entryAt? location = some .directory
  directory_made : ∀ {location : Location}, after.entryAt? location = some .directory →
    before.entryAt? location = some .directory ∨ location ∈ made
  fileAt?_eq : ∀ {location : Location}, location ∉ written →
    after.fileAt? location = before.fileAt? location

namespace Changes

variable {written made written' made' : Set Location} {before middle after : FileSystem}

/-- Nothing has changed. -/
theorem refl (fs : FileSystem) : Changes written made fs fs where
  workingDirectory_eq := rfl
  directory_stays h := h
  directory_made h := Or.inl h
  fileAt?_eq _ := rfl

/-- More may be allowed to change. -/
theorem mono (h : Changes written made before after) (hw : written ⊆ written')
    (hm : made ⊆ made') : Changes written' made' before after where
  workingDirectory_eq := h.workingDirectory_eq
  directory_stays := h.directory_stays
  directory_made hdir := (h.directory_made hdir).imp_right (hm ·)
  fileAt?_eq hl := h.fileAt?_eq fun mem => hl (hw mem)

/-- **Changes add up.**  The locations are the same for both parts; `mono` makes them
so. -/
theorem trans (h : Changes written made before middle) (h' : Changes written made middle after) :
    Changes written made before after where
  workingDirectory_eq := h'.workingDirectory_eq.trans h.workingDirectory_eq
  directory_stays hdir := h'.directory_stays (h.directory_stays hdir)
  directory_made hdir := (h'.directory_made hdir).elim h.directory_made Or.inr
  fileAt?_eq hl := (h'.fileAt?_eq hl).trans (h.fileAt?_eq hl)

/-- Files that are back to what they were have not changed.  This is how undoing a run
is compared with the time before it. -/
theorem of_restored (restorable : Set Location)
    (h : Changes (written ∪ restorable) made before after)
    (restored : ∀ location ∈ restorable, after.fileAt? location = before.fileAt? location) :
    Changes written made before after where
  workingDirectory_eq := h.workingDirectory_eq
  directory_stays := h.directory_stays
  directory_made := h.directory_made
  fileAt?_eq := by
    intro location untouched
    by_cases mem : location ∈ restorable
    · exact restored location mem
    · exact h.fileAt?_eq (by simp [untouched, mem])

variable (h : Changes written made before after)
include h

/-- What is there stays, unless it is written.  No location for new directories is
needed: where something is, none is made. -/
theorem entryAt?_eq_some {location : Location} {entry : Entry} (hw : location ∉ written)
    (hentry : before.entryAt? location = some entry) : after.entryAt? location = some entry := by
  cases entry with
  | directory => exact h.directory_stays hentry
  | file content writable =>
      rw [← fileAt?_eq_some_iff, h.fileAt?_eq hw, fileAt?_eq_some_iff]
      exact hentry

/-- Away from the changes everything is as it was.  It is the frame in its plainest
form. -/
theorem entryAt?_eq {location : Location} (hw : location ∉ written) (hm : location ∉ made) :
    after.entryAt? location = before.entryAt? location := by
  cases hentry : before.entryAt? location with
  | none =>
      rw [entryAt?_eq_none_iff, h.fileAt?_eq hw]
      refine ⟨(entryAt?_eq_none_iff.mp hentry).1, fun hdir => ?_⟩
      rcases h.directory_made hdir with hbefore | mem
      · simp [hbefore] at hentry
      · exact hm mem
  | some entry => exact h.entryAt?_eq_some hw hentry

/-- Paths start where they started. -/
theorem origin (path : Path) : after.origin path = before.origin path :=
  origin_of_workingDirectory_eq h.workingDirectory_eq path

/-- Places do not move.  The working directory does not change, and nothing else about
places could. -/
theorem placeOf (path : Path) : after.placeOf path = before.placeOf path :=
  placeOf_of_workingDirectory_eq h.workingDirectory_eq path

/-- Names that could be followed still can be. -/
theorem follow {location found : Location} {names : List String}
    (hfollow : before.follow location names = .ok found) :
    after.follow location names = .ok found := by
  induction names generalizing location with
  | nil => exact hfollow
  | cons name rest ih =>
      rw [follow_cons_eq_ok_iff, obstacle?_eq_none_iff] at hfollow ⊢
      obtain ⟨⟨directory, allowed⟩, followed⟩ := hfollow
      exact ⟨⟨h.directory_stays directory, allowed⟩, ih followed⟩

/-- **A path that is located stays located.**  Nothing is said about paths that led
nowhere, as a directory may have been made for them. -/
theorem locate {path : Path} {location : Location} (hlocate : before.locate path = .ok location) :
    after.locate path = .ok location := by
  rw [locate_eq_ok_iff_follow] at hlocate ⊢
  rw [h.origin]
  exact ⟨hlocate.1, h.follow hlocate.2⟩

/-- A path to a directory still leads to it. -/
theorem leads {path : Path} (hleads : before.Leads path) : after.Leads path := by
  rw [Leads, h.origin, h.placeOf]
  exact ⟨h.follow hleads.1, h.directory_stays hleads.2⟩

/-- **What a path names stays what it was**, unless it is written.  One location has to
be untouched, and not the whole way to it. -/
theorem stat {path : Path} {location : Location} {entry : Entry}
    (hstat : before.stat path = .ok (location, entry)) (hw : location ∉ written) :
    after.stat path = .ok (location, entry) := by
  rw [stat_eq_ok_iff] at hstat ⊢
  exact ⟨h.locate hstat.1, h.entryAt?_eq_some hw hstat.2.1, hstat.2.2⟩

/-- What a path that names something reads as stays what it was, unless it is written.
It covers binary files and directories as well, where reading fails before and after. -/
theorem readText {path : Path} {location : Location} {entry : Entry}
    (hstat : before.stat path = .ok (location, entry)) (hw : location ∉ written) :
    after.readText path = before.readText path := by
  rw [FileSystem.readText, FileSystem.read, h.stat hstat hw, FileSystem.readText,
    FileSystem.read, hstat]

end Changes

/-! ## Changes of files only -/

namespace Changes

variable {written : Set Location} {before after : FileSystem} (h : Changes written ∅ before after)
include h

/-- **Where no directory is new, changes can be seen from either side.**  A file that is
new from the one side has gone from the other, which is all the same here. -/
theorem symm : Changes written ∅ after before where
  workingDirectory_eq := h.workingDirectory_eq.symm
  directory_stays hdir := (h.directory_made hdir).resolve_right (Set.notMem_empty _)
  directory_made hdir := .inl (h.directory_stays hdir)
  fileAt?_eq untouched := (h.fileAt?_eq untouched).symm

/-- Paths lead to the same locations before and after. -/
theorem locate_eq_ok_iff {path : Path} {location : Location} :
    after.locate path = .ok location ↔ before.locate path = .ok location :=
  ⟨h.symm.locate, h.locate⟩

theorem stat_eq_ok_iff {path : Path} {location : Location} {entry : Entry}
    (untouched : location ∉ written) :
    after.stat path = .ok (location, entry) ↔ before.stat path = .ok (location, entry) :=
  ⟨fun found => h.symm.stat found untouched, fun found => h.stat found untouched⟩

/-- **What a path reads as stays what it was**, unless it is written. -/
theorem readText_eq_ok_iff {path : Path} {text : String}
    (untouched : before.placeOf path ∉ written) :
    after.readText path = .ok text ↔ before.readText path = .ok text := by
  rw [FileSystem.readText_eq_ok_iff, FileSystem.readText_eq_ok_iff]
  refine exists_congr fun location => exists_congr fun writable => ?_
  constructor
  · intro found
    obtain rfl := eq_placeOf_of_stat found
    rw [h.placeOf] at found ⊢
    exact (h.stat_eq_ok_iff untouched).mp found
  · intro found
    obtain rfl := eq_placeOf_of_stat found
    exact (h.stat_eq_ok_iff untouched).mpr found

end Changes

/-! ## Writing files -/

namespace FileSystem

variable {fs : FileSystem}

/-- **A file is written** where there is a file that can be written, or nothing.  It is
the one place where writing is opened. -/
theorem write_eq_ok_iff {path : Path} {content : Content} {after : FileSystem} :
    fs.write path content = .ok after ↔
      ∃ location, fs.locate path = .ok location ∧ demandsDirectory path = false ∧
        (fs.entryAt? location = none ∨
          ∃ old, fs.entryAt? location = some (.file old true)) ∧
        after = fs.put location (.file content true) := by
  rw [write]
  cases fs.locate path with
  | error reason => simp [bind, Except.bind]
  | ok location =>
      simp only [bind, Except.bind, Except.ok.injEq, exists_eq_left']
      cases fs.entryAt? location with
      | none => cases demandsDirectory path <;> simp [eq_comm]
      | some entry =>
          cases entry with
          | directory => simp
          | file old writable =>
              cases demandsDirectory path <;> cases writable <;> simp [eq_comm]

/-- **Whether a file is written** is up to the file, where there is one.  So a read-only
file is the only obstacle once a file is known to be there. -/
theorem write_of_stat {path : Path} {location : Location} {old content : Content} {writable : Bool}
    (h : fs.stat path = .ok (location, .file old writable)) :
    fs.write path content =
      if writable then .ok (fs.put location (.file content true)) else .error .permissionDenied := by
  obtain ⟨located, held, demands⟩ := stat_eq_ok_iff.mp h
  have fileLike : demandsDirectory path = false := demands.resolve_left (by simp)
  simp [write, located, held, fileLike, bind, Except.bind]

/-- A file system that differs at one location, with no directory there, differs by a
file.  Both putting and removing a file are of this kind. -/
theorem changes_of_eq_off {location : Location} {after : FileSystem}
    (workingDirectory : after.workingDirectory = fs.workingDirectory)
    (off : ∀ {other}, other ≠ location → after.entryAt? other = fs.entryAt? other)
    (first : fs.entryAt? location ≠ some .directory)
    (last : after.entryAt? location ≠ some .directory) : Changes {location} ∅ fs after where
  workingDirectory_eq := workingDirectory
  directory_stays := by
    intro other hother
    have hne : other ≠ location := by
      rintro rfl
      exact first hother
    rw [off hne]
    exact hother
  directory_made := by
    intro other hother
    have hne : other ≠ location := by
      rintro rfl
      exact last hother
    rw [off hne] at hother
    exact Or.inl hother
  fileAt?_eq := by
    intro other hother
    rw [fileAt?, off (by simpa using hother), fileAt?]

/-- Putting a file where there is no directory.  A file that is there is replaced, with
its content and its permission. -/
theorem put_file_changes {location : Location} (h : fs.entryAt? location ≠ some .directory)
    (content : Content) (writable : Bool) :
    Changes {location} ∅ fs (fs.put location (.file content writable)) :=
  changes_of_eq_off rfl (entryAt?_put_of_ne fs _) h
    (by simp [entryAt?_put_self fs _ (ne_nil_of_entryAt?_ne h)])

/-- **What writing a file does.**  The path leads to its place afterwards as it did
before. -/
theorem write_changes {path : Path} {content : Content} {after : FileSystem}
    (h : fs.write path content = .ok after) :
    Changes {fs.placeOf path} ∅ fs after ∧
      after.entryAt? (fs.placeOf path) = some (.file content true) ∧
      fs.locate path = .ok (fs.placeOf path) := by
  obtain ⟨location, hlocate, _, there, rfl⟩ := write_eq_ok_iff.mp h
  obtain rfl := eq_placeOf_of_locate hlocate
  have noDirectory : fs.entryAt? (fs.placeOf path) ≠ some .directory := by
    rcases there with hnone | ⟨old, hold⟩ <;> simp_all
  exact ⟨put_file_changes noDirectory content true,
    entryAt?_put_self fs _ (ne_nil_of_entryAt?_ne noDirectory), hlocate⟩

/-- **A file is given another name**, in the place of a file or of nothing.  The file
takes its permission along, and what was under the new name is gone. -/
theorem rename_file_eq_ok_iff {source target : Path} {location : Location} {content : Content}
    {writable : Bool} {after : FileSystem}
    (hsource : fs.stat source = .ok (location, .file content writable)) :
    fs.rename source target = .ok after ↔
      ∃ goal, fs.locate target = .ok goal ∧ fs.entryAt? goal ≠ some .directory ∧
        demandsDirectory target = false ∧
        after = (fs.erase location).put goal (.file content writable) := by
  rw [rename, hsource]
  simp only [bind, Except.bind]
  cases fs.locate target with
  | error reason => simp
  | ok goal =>
      simp only [Except.ok.injEq, exists_eq_left']
      cases fs.entryAt? goal with
      | none => cases demandsDirectory target <;> simp [eq_comm]
      | some entry => cases entry <;> cases demandsDirectory target <;> simp [eq_comm]

/-- Removing a file.  Its location is left with nothing. -/
theorem erase_file_changes {location : Location} (h : fs.entryAt? location ≠ some .directory) :
    Changes {location} ∅ fs (fs.erase location) :=
  changes_of_eq_off rfl (entryAt?_erase_of_ne fs) h
    (by simp [entryAt?_erase_self (ne_nil_of_entryAt?_ne h)])

/-- **What giving a file another name does.**  The two locations have to be different:
renaming a file to itself would leave it. -/
theorem rename_file_changes {source target : Path} {location : Location} {content : Content}
    {writable : Bool} {after : FileSystem}
    (hsource : fs.stat source = .ok (location, .file content writable))
    (h : fs.rename source target = .ok after) (hne : location ≠ fs.placeOf target) :
    Changes {location, fs.placeOf target} ∅ fs after ∧
      after.entryAt? (fs.placeOf target) = some (.file content writable) ∧
      after.entryAt? location = none := by
  obtain ⟨goal, hgoal, noDirectory, _, rfl⟩ := (rename_file_eq_ok_iff hsource).mp h
  obtain rfl := eq_placeOf_of_locate hgoal
  have hfile := (stat_eq_ok_iff.mp hsource).2.1
  have fileThere : fs.entryAt? location ≠ some .directory := by simp [hfile]
  have still : (fs.erase location).entryAt? (fs.placeOf target) ≠ some .directory := by
    rwa [entryAt?_erase_of_ne fs (Ne.symm hne)]
  refine ⟨?_, entryAt?_put_self _ _ (ne_nil_of_entryAt?_ne noDirectory), ?_⟩
  · exact ((erase_file_changes fileThere).mono (by simp) subset_rfl).trans
      ((put_file_changes still content writable).mono (by simp) subset_rfl)
  · rw [entryAt?_put_of_ne _ _ hne, entryAt?_erase_self (ne_nil_of_entryAt?_ne fileThere)]

/-! ## Making directories -/

/-- A directory is made where there is nothing, and only the last name may be missing.
-/
theorem makeDirectory_eq_ok_iff {path : Path} {after : FileSystem} :
    fs.makeDirectory path = .ok after ↔
      ∃ location, fs.locate path = .ok location ∧ fs.entryAt? location = none ∧
        after = fs.put location .directory := by
  rw [makeDirectory]
  cases fs.locate path with
  | error reason => simp [bind, Except.bind]
  | ok location =>
      simp only [bind, Except.bind, Except.ok.injEq, exists_eq_left']
      cases fs.entryAt? location <;> simp [eq_comm]

/-- Putting a directory where there is nothing.  No file can be lost by it. -/
theorem put_directory_changes {location : Location} (h : fs.entryAt? location = none) :
    Changes ∅ {location} fs (fs.put location .directory) where
  workingDirectory_eq := rfl
  directory_stays := by
    intro other hother
    have hne : other ≠ location := by
      rintro rfl
      simp [h] at hother
    rw [entryAt?_put_of_ne fs _ hne]
    exact hother
  directory_made := by
    intro other hother
    by_cases heq : other = location
    · exact Or.inr heq
    · rw [entryAt?_put_of_ne fs _ heq] at hother
      exact Or.inl hother
  fileAt?_eq := by
    intro other _
    by_cases heq : other = location
    · subst heq
      have nonempty : other ≠ [] := by
        rintro rfl
        simp at h
      rw [fileAt?, entryAt?_put_self fs _ nonempty, fileAt?, h]
    · rw [fileAt?, entryAt?_put_of_ne fs _ heq, fileAt?]

/-- So making one directory adds one location at most. -/
theorem makeDirectory_changes {path : Path} {after : FileSystem}
    (h : fs.makeDirectory path = .ok after) : Changes ∅ {fs.placeOf path} fs after := by
  obtain ⟨location, hlocate, hnone, rfl⟩ := makeDirectory_eq_ok_iff.mp h
  obtain rfl := eq_placeOf_of_locate hlocate
  exact put_directory_changes hnone

/-- Making the directories on the way to a path, one after the other, changes no file;
an induction along the components. -/
theorem makeDirectoriesFrom_changes (components : List PathComponent) (path : Path) :
    Changes ∅ Set.univ fs (makeDirectoriesFrom fs path components).1 := by
  induction components generalizing path with
  | nil => exact .refl fs
  | cons _ above ih =>
      rw [makeDirectoriesFrom]
      cases hmake : fs.makeDirectory path with
      | ok made => exact (makeDirectory_changes hmake).mono subset_rfl (Set.subset_univ _)
      | error reason =>
          have further := ih (componentsPath above.reverse)
          cases reason with
          | notFound =>
              dsimp only
              cases hrest : makeDirectoriesFrom fs (componentsPath above.reverse) above with
              | mk made outcome =>
                  rw [hrest] at further
                  cases outcome with
                  | error reason => exact further
                  | ok done =>
                      dsimp only
                      cases hlast : made.makeDirectory path with
                      | error reason => exact further
                      | ok last =>
                          exact further.trans ((makeDirectory_changes hlast).mono subset_rfl
                            (Set.subset_univ _))
          | _ => exact .refl fs

/-- **Making directories changes no file.**  That holds when it fails halfway too. -/
theorem makeDirectories_changes (fs : FileSystem) (path : Path) :
    Changes ∅ Set.univ fs (fs.makeDirectories path).1 :=
  makeDirectoriesFrom_changes _ path

/-- A path that leads to a directory names it. -/
theorem stat_of_leads {path : Path} (hleads : fs.Leads path) (h : isFollowable path = true) :
    fs.stat path = .ok (fs.placeOf path, .directory) :=
  stat_eq_ok_iff.mpr ⟨locate_eq_ok_iff_follow.mpr ⟨h, hleads.1⟩, hleads.2, Or.inl rfl⟩

/-- A directory that is there need not be made.  The empty path stands for the working
directory, which is there. -/
theorem makeDirectories_of_leads {path : Path} (hleads : fs.Leads path)
    (h : path.text = "" ∨ isFollowable path = true) : fs.makeDirectories path = (fs, .ok ()) := by
  rw [makeDirectories]
  cases hcomponents : path.components.reverse with
  | nil => rfl
  | cons component above =>
      have followable : isFollowable path = true := by
        refine h.resolve_left fun hempty => ?_
        obtain ⟨text⟩ := path
        obtain rfl : text = "" := hempty
        have nothing : ({ text := "" } : Path).components.reverse = [] := by decide
        simp [nothing] at hcomponents
      have hmake : fs.makeDirectory path = .error .alreadyExists := by
        rw [makeDirectory, locate_eq_ok_iff_follow.mpr ⟨followable, hleads.1⟩]
        simp [bind, Except.bind, hleads.2]
      rw [makeDirectoriesFrom, hmake]
      simp [isDirectory_of_stat (stat_of_leads hleads followable)]

/-- A directory that is found by its path need not be made.  In this form it is used
after a check whether the directory is there. -/
theorem makeDirectories_of_isDirectory {path : Path} (h : fs.isDirectory path = true) :
    fs.makeDirectories path = (fs, .ok ()) := by
  obtain ⟨location, found⟩ := isDirectory_eq_true_iff.mp h
  obtain ⟨located, directory, -⟩ := stat_eq_ok_iff.mp found
  obtain rfl := eq_placeOf_of_locate located
  obtain ⟨followable, follows⟩ := locate_eq_ok_iff_follow.mp located
  exact makeDirectories_of_leads ⟨follows, directory⟩ (.inr followable)

/-- A directory that was made is found. -/
theorem isDirectory_of_makeDirectory {path : Path} {after : FileSystem}
    (h : fs.makeDirectory path = .ok after) : after.isDirectory path = true := by
  obtain ⟨location, located, free, rfl⟩ := makeDirectory_eq_ok_iff.mp h
  have clear : fs.entryAt? location ≠ some .directory := by simp [free]
  have there : (fs.put location .directory).entryAt? location = some .directory :=
    entryAt?_put_self fs _ (ne_nil_of_entryAt?_ne clear)
  exact isDirectory_of_stat
    (stat_eq_ok_iff.mpr ⟨(put_directory_changes free).locate located, there, .inl rfl⟩)

/-- **A directory that has been made is there.**  A path without components names no
directory to be made. -/
theorem isDirectory_of_makeDirectories {path : Path} {made : FileSystem}
    (h : fs.makeDirectories path = (made, .ok ())) :
    path.components = [] ∨ made.isDirectory path = true := by
  rw [makeDirectories] at h
  cases hcomponents : path.components.reverse with
  | nil => exact .inl (List.reverse_eq_nil_iff.mp hcomponents)
  | cons last above =>
      right
      rw [hcomponents, makeDirectoriesFrom] at h
      cases hmake : fs.makeDirectory path with
      | ok after =>
          simp only [hmake, Prod.mk.injEq, and_true] at h
          exact h ▸ isDirectory_of_makeDirectory hmake
      | error reason =>
          rw [hmake] at h
          cases reason with
          | notFound =>
              dsimp only at h
              cases hrest : makeDirectoriesFrom fs (componentsPath above.reverse) above with
              | mk further outcome =>
                  cases outcome with
                  | error reason => simp [hrest] at h
                  | ok done =>
                      simp only [hrest] at h
                      cases hlast : further.makeDirectory path with
                      | ok after =>
                          simp only [hlast, Prod.mk.injEq, and_true] at h
                          exact h ▸ isDirectory_of_makeDirectory hlast
                      | error reason =>
                          simp only [hlast, Prod.mk.injEq] at h
                          obtain ⟨rfl, there⟩ := h
                          by_contra absent
                          simp [absent] at there
          | _ =>
              simp only [Prod.mk.injEq] at h
              obtain ⟨rfl, there⟩ := h
              by_contra absent
              simp [absent] at there

/-- **A directory that has been made need not be made again**, as long as only files
change.  Files may be written between, as they are when a run keeps several backups. -/
theorem makeDirectories_again {path : Path} {made later : FileSystem} {written : Set Location}
    (h : fs.makeDirectories path = (made, .ok ())) (changes : Changes written ∅ made later) :
    later.makeDirectories path = (later, .ok ()) := by
  rcases isDirectory_of_makeDirectories h with nothing | there
  · rw [makeDirectories, nothing]
    rfl
  · obtain ⟨location, found⟩ := isDirectory_eq_true_iff.mp there
    obtain ⟨located, directory, demands⟩ := stat_eq_ok_iff.mp found
    exact makeDirectories_of_isDirectory (isDirectory_of_stat (stat_eq_ok_iff.mpr
      ⟨changes.locate located, changes.directory_stays directory, demands⟩))

/-- A directory is made where there is nothing.  Everything before it has to be there,
which being located says. -/
theorem makeDirectories_of_free {path : Path} {location : Location} (some : path.components ≠ [])
    (hlocate : fs.locate path = .ok location) (free : fs.entryAt? location = none) :
    fs.makeDirectories path = (fs.put location .directory, .ok ()) := by
  have made := makeDirectory_eq_ok_iff.mpr ⟨location, hlocate, free, rfl⟩
  rw [makeDirectories]
  cases hcomponents : path.components.reverse with
  | nil => exact absurd (List.reverse_eq_nil_iff.mp hcomponents) some
  | cons last above => rw [makeDirectoriesFrom, made]

/-- The last directory on the way can be missing, but none before it.  For that reason
making a directory below one that is there never has to make others first. -/
theorem makeDirectory_child_ne_notFound {path : Path} {name : String} (plain : IsPlainName name)
    (hleads : fs.Leads path) : fs.makeDirectory (path.child name) ≠ .error .notFound := by
  have nonempty : (path.child name).text.isEmpty = false := by
    rw [Path.child_text path plain]
    split <;> simp [plain.ne_empty]
  have hfollow : fs.follow (fs.origin path) (pathNames path ++ [name]) =
      if longestName < name.utf8ByteSize then .error .nameTooLong
      else .ok (fs.placeOf path ++ [name]) := by
    rw [follow_append, hleads.1]
    simp [Except.bind, hleads.2, plain.ne_dot, plain.ne_dots, follow]
  rw [makeDirectory, locate, nonempty, ← FileSystem.origin, origin_child path plain,
    pathNames_child path plain, hfollow]
  intro h
  split at h
  · contradiction
  · split at h
    · simp [bind, Except.bind] at h
    · split at h
      · simp [bind, Except.bind] at h
      · split at h
        · simp [bind, Except.bind] at h
        · simp only [bind, Except.bind] at h
          split at h <;> simp at h

/-- **Below a directory that is there, only the last one is made.**  It is what lets a
run claim that it makes no directory but its own. -/
theorem makeDirectories_child_changes {path : Path} {name : String} (plain : IsPlainName name)
    (hleads : fs.Leads path) :
    Changes ∅ {fs.placeOf path ++ [name]} fs (fs.makeDirectories (path.child name)).1 := by
  rw [makeDirectories]
  cases (path.child name).components.reverse with
  | nil => exact .refl fs
  | cons component above =>
      rw [makeDirectoriesFrom]
      cases hmake : fs.makeDirectory (path.child name) with
      | ok made =>
          rw [← placeOf_child path plain]
          exact makeDirectory_changes hmake
      | error reason =>
          cases reason with
          | notFound => exact absurd hmake (makeDirectory_child_ne_notFound plain hleads)
          | _ => exact .refl fs

end FileSystem

end AliasHoist
