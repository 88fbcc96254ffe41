import AliasHoist.Proofs.FileSystem.Removing

/-!
# Where two file systems agree

Two file systems that differ at some locations only are the same to a path that has to do with none of
them: neither does it end there, nor does it lead through there.  What is read along such a path is the
same, and what is written along it is written in both.

## Main Definitions

* `FileSystem.Avoids`: a path that has to do with none of some locations.

## Main Statements

* `Keeps.locate_eq`, `Keeps.stat_eq`, `Keeps.readText_eq`: looking along such a path;
* `Keeps.write_alike`: writing along such a path;
* `avoids_of_direct`: what a direct path has nothing to do with.
-/

namespace AliasHoist

namespace FileSystem

variable {fs : FileSystem} {touched : Set Location} {path : Path} {name : String}

/-- **A path that avoids some locations**: it neither ends at one of them nor leads
through one.  Dots count as well: a path that goes through a directory and out again
depends on that directory. -/
def Avoids (fs : FileSystem) (touched : Set Location) (path : Path) : Prop :=
  ∀ front rest, pathNames path = front ++ rest → walk (fs.origin path) front ∉ touched

/-- In particular it does not end at one of them. -/
theorem Avoids.placeOf (h : fs.Avoids touched path) : fs.placeOf path ∉ touched :=
  h (pathNames path) [] (List.append_nil _).symm

/-- A path avoids what is reached along none of its beginnings.  With the names and the
start written out, this is decided by a finite check. -/
theorem avoids_of_prefixes {names : List String} {start : Location} (named : pathNames path = names)
    (starts : fs.origin path = start) (apart : ∀ front, front <+: names → walk start front ∉ touched) :
    fs.Avoids touched path := by
  intro front rest same
  rw [starts]
  exact apart front ⟨rest, by rw [← named, same]⟩

/-- What is avoided does not depend on the files.  Whether there is anything at those
locations plays no part. -/
theorem Avoids.of_workingDirectory_eq {other : FileSystem} (h : fs.Avoids touched path)
    (same : other.workingDirectory = fs.workingDirectory) : other.Avoids touched path := by
  intro front rest whole
  rw [origin, same, ← origin]
  exact h front rest whole

/-- A path that is continued avoids what it avoided, if it does not end there now.  It
builds up the path of a record or of a backup name by name. -/
theorem Avoids.child (h : fs.Avoids touched path) (plain : IsPlainName name)
    (place : fs.placeOf path ++ [name] ∉ touched) : fs.Avoids touched (path.child name) := by
  intro front rest same
  rw [pathNames_child path plain] at same
  rw [origin_child path plain]
  rcases List.append_eq_append_iff.mp same with ⟨further, whole, last⟩ | ⟨further, whole, -⟩
  · cases further with
    | nil =>
        rw [whole, List.append_nil]
        exact h.placeOf
    | cons first others =>
        -- what follows the whole path is the name alone
        obtain ⟨rfl, rfl, rfl⟩ : first = name ∧ others = [] ∧ rest = [] := by
          simpa [eq_comm] using last
        rw [whole, walk_append, walk_singleton _ plain]
        exact place
  · exact h front further whole

/-- **A direct path avoids what is in its goal.**  It ends at a directory and uses
nothing in it, so whatever happens inside is nothing to it. -/
theorem avoids_of_direct (direct : fs.IsDirect path)
    (inside : ∀ location ∈ touched, fs.placeOf path <+: location ∧ location ≠ fs.placeOf path) :
    fs.Avoids touched path := by
  intro front rest same mem
  obtain ⟨below, strictly⟩ := inside _ mem
  cases rest with
  | nil =>
      rw [List.append_nil] at same
      exact strictly (by rw [FileSystem.placeOf, same])
  | cons name others => exact strictly (direct front name others same below)

end FileSystem

open FileSystem

namespace Keeps

variable {touched : Set Location} {before after : FileSystem} {path : Path}
  (h : Keeps touched before after)
include h

/-- What is put in both stays the same.  This is how agreement survives a write that is
made on both sides. -/
theorem put (location : Location) (entry : Entry) :
    Keeps touched (before.put location entry) (after.put location entry) where
  workingDirectory_eq := h.workingDirectory_eq
  entryAt?_eq other untouched := by
    by_cases same : other = location
    · subst same
      by_cases root : other = []
      · simp [root]
      · rw [entryAt?_put_self _ _ root, entryAt?_put_self _ _ root]
    · rw [entryAt?_put_of_ne _ _ same, entryAt?_put_of_ne _ _ same]
      exact h.entryAt?_eq other untouched

variable (apart : before.Avoids touched path)
include apart

/-- **A path leads to the same place, or fails for the same reason.**  The reason is the
same because the first obstacle on the way is. -/
theorem locate_eq : after.locate path = before.locate path := by
  have way : after.follow (before.origin path) (pathNames path) =
      before.follow (before.origin path) (pathNames path) :=
    follow_congr fun front name rest same => h.entryAt?_eq _ (apart front _ same)
  rw [locate, locate, ← FileSystem.origin, ← FileSystem.origin, h.origin, way]

/-- What is at its end is the same. -/
theorem entryAt?_placeOf_eq :
    after.entryAt? (before.placeOf path) = before.entryAt? (before.placeOf path) :=
  h.entryAt?_eq _ apart.placeOf

/-- **A path names the same.**  It is the last lemma that looks at locations; those
below only look at what the path names. -/
theorem stat_eq : after.stat path = before.stat path := by
  rw [stat, stat, h.locate_eq apart]
  cases hlocate : before.locate path with
  | error reason => rfl
  | ok location =>
      obtain rfl := eq_placeOf_of_locate hlocate
      simp only [bind, Except.bind, h.entryAt?_placeOf_eq apart]

/-- There is something in both, or in neither. -/
theorem exists?_eq : after.exists? path = before.exists? path := by
  rw [exists?, exists?, h.stat_eq apart]

/-- The content is the same, or the failure is. -/
theorem read_eq : after.read path = before.read path := by
  rw [FileSystem.read, FileSystem.read, h.stat_eq apart]

/-- **A path reads as the same.**  A run, an index and a backup are all read in this
way. -/
theorem readText_eq : after.readText path = before.readText path := by
  rw [readText, readText, h.read_eq apart]

/-- **Writing comes to the same**: it fails for the same reason, or it is done in both.
The two file systems still agree afterwards, on the location that was written as well.
-/
theorem write_alike (content : Content) :
    (∃ reason, before.write path content = .error reason ∧ after.write path content = .error reason) ∨
      ∃ written written', before.write path content = .ok written ∧
        after.write path content = .ok written' ∧ Keeps touched written written' := by
  rw [write, write, h.locate_eq apart]
  cases hlocate : before.locate path with
  | error reason => exact .inl ⟨reason, rfl, rfl⟩
  | ok location =>
      obtain rfl := eq_placeOf_of_locate hlocate
      simp only [bind, Except.bind, h.entryAt?_placeOf_eq apart]
      have both := h.put (before.placeOf path) (.file content true)
      cases before.entryAt? (before.placeOf path) with
      | none =>
          dsimp only
          split
          · exact .inl ⟨_, rfl, rfl⟩
          · exact .inr ⟨_, _, rfl, rfl, both⟩
      | some entry =>
          cases entry with
          | directory => exact .inl ⟨_, rfl, rfl⟩
          | file old writable =>
              dsimp only
              split
              · exact .inl ⟨_, rfl, rfl⟩
              · split
                · exact .inr ⟨_, _, rfl, rfl, both⟩
                · exact .inl ⟨_, rfl, rfl⟩

end Keeps

end AliasHoist
