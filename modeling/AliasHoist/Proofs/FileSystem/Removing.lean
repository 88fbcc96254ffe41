import AliasHoist.Proofs.FileSystem.Changes

/-!
# What removing takes away

A removed directory takes with it what is below it, and with that perhaps the way of a path: a path may
lead through a directory that it does not end in.  This module says which directories a path depends
on, and that a path with nothing of its own goal on the way keeps leading there whatever is removed in
that goal.

## Main Definitions

* `FileSystem.IsDirect`: a path does not lead through what is in its goal;
* `Keeps`: everything outside some locations is as it was.

## Main Statements

* `follow_congr`: following names depends on the directories on the way;
* `isDirect_of_empty`: a path that leads to an empty directory is direct;
* `Keeps.leads`: a direct path leads where it led when only what is in its goal changes;
* `removeDirectory_keeps`, `removeFile_keeps`: the operations that remove.
-/

namespace AliasHoist

namespace FileSystem

variable {fs before after : FileSystem} {location other : Location} {names : List String}
  {path : Path}

/-! ## The directories on the way -/

/-- **Following names depends on the entries on the way**, the last one apart.  The last
one is the goal, and what is there is a matter for whoever uses the path. -/
theorem follow_congr (h : ∀ front name rest, names = front ++ name :: rest →
      after.entryAt? (walk location front) = before.entryAt? (walk location front)) :
    after.follow location names = before.follow location names := by
  induction names generalizing location with
  | nil => rfl
  | cons name rest ih =>
      have here : after.entryAt? location = before.entryAt? location := h [] name rest rfl
      -- one name further, the entries on the way are those of the longer way
      have later : after.follow (nextLocation location name) rest =
          before.follow (nextLocation location name) rest := by
        refine ih fun front name' rest' same => ?_
        rw [← walk_cons]
        exact h (name :: front) name' rest' (by rw [same, List.cons_append])
      rw [follow_cons, follow_cons, obstacle?, obstacle?, here, later]

/-- Names that are followed lead through directories.  It is the inversion that turns a
path that is found into facts about directories. -/
theorem entryAt?_of_follow {front rest : List String} {name : String} {found : Location}
    (h : fs.follow location (front ++ name :: rest) = .ok found) :
    fs.entryAt? (walk location front) = some .directory := by
  rw [follow_append] at h
  cases hfront : fs.follow location front with
  | error reason => simp [hfront, Except.bind] at h
  | ok reached =>
      obtain rfl := eq_walk_of_follow hfront
      simp only [hfront, Except.bind] at h
      exact (obstacle?_eq_none_iff.mp (follow_cons_eq_ok_iff.mp h).1).1

/-- **A path that does not lead through what is in its goal.**  A path like `s/x/..`
leads to `s` through `s/x` and breaks when `s/x` is removed; this excludes it. -/
def IsDirect (fs : FileSystem) (path : Path) : Prop :=
  ∀ front name rest, pathNames path = front ++ name :: rest →
    fs.placeOf path <+: walk (fs.origin path) front →
    walk (fs.origin path) front = fs.placeOf path

/-- **A path that leads to an empty directory is direct**: there is nothing in it to
lead through.  So a state directory that starts out empty has such a path from the
beginning, however it is spelled. -/
theorem isDirect_of_empty (leads : fs.Leads path)
    (empty : ∀ location, fs.placeOf path <+: location → location ≠ fs.placeOf path →
      fs.entryAt? location = none) : fs.IsDirect path := by
  intro front name rest same below
  by_contra strictly
  have followed := leads.1
  rw [same] at followed
  have directory := entryAt?_of_follow followed
  rw [empty _ below strictly] at directory
  contradiction

/-- Being direct is a matter of names and of where they start. -/
theorem IsDirect.of_workingDirectory_eq (h : before.IsDirect path)
    (same : after.workingDirectory = before.workingDirectory) : after.IsDirect path := by
  rw [IsDirect, origin_of_workingDirectory_eq same, placeOf_of_workingDirectory_eq same]
  exact h

end FileSystem

open FileSystem

/-! ## What is kept -/

/-- **Everything outside some locations is as it was.**  Unlike `Changes` it allows
directories to go away, and says nothing about what becomes of the locations that were
touched. -/
structure Keeps (touched : Set Location) (before after : FileSystem) : Prop where
  workingDirectory_eq : after.workingDirectory = before.workingDirectory
  entryAt?_eq : ∀ location, location ∉ touched → after.entryAt? location = before.entryAt? location

namespace Keeps

variable {touched touched' : Set Location} {before middle after fs : FileSystem} {path : Path}

/-- Nothing changed is everything kept. -/
theorem refl (fs : FileSystem) : Keeps touched fs fs where
  workingDirectory_eq := rfl
  entryAt?_eq _ _ := rfl

/-- More may be allowed to be touched. -/
theorem mono (h : Keeps touched before after) (sub : touched ⊆ touched') :
    Keeps touched' before after where
  workingDirectory_eq := h.workingDirectory_eq
  entryAt?_eq location untouched := h.entryAt?_eq location fun mem => untouched (sub mem)

/-- What is kept twice is kept. -/
theorem trans (h : Keeps touched before middle) (h' : Keeps touched middle after) :
    Keeps touched before after where
  workingDirectory_eq := h'.workingDirectory_eq.trans h.workingDirectory_eq
  entryAt?_eq location untouched :=
    (h'.entryAt?_eq location untouched).trans (h.entryAt?_eq location untouched)

/-- Changes keep what is neither written nor made.  Most operations are described by
`Changes`; this takes them to where removals are involved too. -/
theorem of_changes {written made : Set Location} (h : Changes written made before after) :
    Keeps (written ∪ made) before after where
  workingDirectory_eq := h.workingDirectory_eq
  entryAt?_eq location untouched := by
    rw [Set.mem_union, not_or] at untouched
    exact h.entryAt?_eq untouched.1 untouched.2

variable (h : Keeps touched before after)
include h

/-- Paths start where they started. -/
theorem origin (path : Path) : after.origin path = before.origin path :=
  origin_of_workingDirectory_eq h.workingDirectory_eq path

/-- Places do not move. -/
theorem placeOf (path : Path) : after.placeOf path = before.placeOf path :=
  placeOf_of_workingDirectory_eq h.workingDirectory_eq path

/-- **A direct path leads where it led** when only what is in its goal has changed.
Without directness, removing something inside could cut the path off. -/
theorem leads (leads : before.Leads path) (direct : before.IsDirect path)
    (inside : ∀ location ∈ touched, before.placeOf path <+: location ∧
      location ≠ before.placeOf path) : after.Leads path := by
  have goal : after.entryAt? (before.placeOf path) = before.entryAt? (before.placeOf path) :=
    h.entryAt?_eq _ fun mem => (inside _ mem).2 rfl
  have way : after.follow (before.origin path) (pathNames path) =
      before.follow (before.origin path) (pathNames path) := by
    refine follow_congr fun front name rest same => h.entryAt?_eq _ fun mem => ?_
    obtain ⟨below, strictly⟩ := inside _ mem
    exact strictly (direct front name rest same below)
  rw [Leads, h.origin, h.placeOf, goal, way]
  exact leads

end Keeps

/-! ## Removing -/

namespace FileSystem

variable {fs after : FileSystem} {location other : Location} {path : Path}

/-- Entries that are kept by a filter are found in what it leaves. -/
theorem lookup_filter_of_keeps {entries : List (Location × Entry)} (keep : Location → Bool)
    (h : keep other = true) :
    (entries.filter fun entry => keep entry.1).lookup other = entries.lookup other := by
  induction entries with
  | nil => rfl
  | cons entry rest ih =>
      obtain ⟨name, held⟩ := entry
      by_cases same : other = name
      · subst same
        simp [h]
      · have ne : (other == name) = false := by simpa using same
        by_cases kept : keep name = true
        · simp [kept, List.lookup_cons, ne, ih]
        · simp [kept, List.lookup_cons, ne, ih]

/-- Removing a directory leaves what is not below it.  The location itself is among what
may go. -/
theorem eraseBelow_keeps (fs : FileSystem) (location : Location) :
    Keeps {other | location <+: other} fs (fs.eraseBelow location) where
  workingDirectory_eq := rfl
  entryAt?_eq other outside := by
    have kept : (!location.isPrefixOf other) = true := by
      rw [Bool.not_eq_true', Bool.eq_false_iff, ne_eq, List.isPrefixOf_iff_prefix]
      exact outside
    have found : (fs.eraseBelow location).entries.lookup other = fs.entries.lookup other :=
      lookup_filter_of_keeps (fun name => !location.isPrefixOf name) kept
    simp only [entryAt?, found]

/-- What is at a location and below it goes away with it.  The root cannot go away,
hence the second hypothesis. -/
theorem entryAt?_eraseBelow (below : location <+: other) (nonempty : other ≠ []) :
    (fs.eraseBelow location).entryAt? other = none := by
  simp only [entryAt?, nonempty, if_false, eraseBelow]
  rw [List.lookup_eq_none_iff]
  intro entry mem
  have kept := (List.mem_filter.mp mem).2
  rw [Bool.not_eq_true', Bool.eq_false_iff, ne_eq, List.isPrefixOf_iff_prefix] at kept
  rw [bne_iff_ne]
  rintro rfl
  exact kept below

/-- **A directory that has a plain name is removed with everything in it.**  The name
has to be plain as one that leads to where it starts cannot be removed. -/
theorem removeDirectory_of_stat {name : String} (plain : IsPlainName name)
    (there : fs.stat (path.child name) = .ok (location, .directory)) :
    fs.removeDirectory (path.child name) = (fs.eraseBelow location, .ok ()) := by
  have last : (pathNames (path.child name)).getLast? = some name := by
    rw [pathNames_child path plain]
    simp
  simp only [removeDirectory, there, last]
  split
  · exact absurd (by simpa using ‹some name = some "."›) plain.ne_dot
  · exact absurd (by simpa using ‹some name = some ".."›) plain.ne_dots
  · rfl

/-- **What removing a directory that has a plain name does.**  Success is assumed, but
not how it was achieved: there may have been nothing below. -/
theorem removeDirectory_keeps {name : String} (plain : IsPlainName name)
    (h : fs.removeDirectory (path.child name) = (after, .ok ())) :
    Keeps {other | fs.placeOf path ++ [name] <+: other} fs after := by
  cases hstat : fs.stat (path.child name) with
  | error reason => simp [removeDirectory, hstat] at h
  | ok found =>
      obtain ⟨location, entry⟩ := found
      obtain rfl : location = fs.placeOf path ++ [name] := by
        rw [eq_placeOf_of_stat hstat, placeOf_child path plain]
      cases entry with
      | file content writable => simp [removeDirectory, hstat] at h
      | directory =>
          rw [removeDirectory_of_stat plain hstat] at h
          obtain rfl := (Prod.mk.inj h).1
          exact eraseBelow_keeps fs _

/-- A file is removed where it is found.  Whether it is writable does not matter for
that. -/
theorem removeFile_eq_ok_iff :
    fs.removeFile path = .ok after ↔
      ∃ location content writable, fs.stat path = .ok (location, .file content writable) ∧
        after = fs.erase location := by
  rw [removeFile]
  cases fs.stat path with
  | error reason => simp [bind, Except.bind]
  | ok found =>
      obtain ⟨location, entry⟩ := found
      cases entry <;> simp [bind, Except.bind, eq_comm]

/-- **What removing a file does.**  Only that location is touched, so of all records one
goes at a time. -/
theorem removeFile_keeps (h : fs.removeFile path = .ok after) :
    Keeps {fs.placeOf path} fs after ∧ after.entryAt? (fs.placeOf path) = none := by
  obtain ⟨location, content, writable, found, rfl⟩ := removeFile_eq_ok_iff.mp h
  obtain rfl := eq_placeOf_of_stat found
  have held := (stat_eq_ok_iff.mp found).2.1
  have noDirectory : fs.entryAt? (fs.placeOf path) ≠ some .directory := by simp [held]
  have nonempty := ne_nil_of_entryAt?_ne noDirectory
  refine ⟨⟨rfl, fun other outside => ?_⟩, entryAt?_erase_self nonempty⟩
  exact entryAt?_erase_of_ne fs (by simpa using outside)

end FileSystem

end AliasHoist
