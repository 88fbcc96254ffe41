import AliasHoist.Proofs.FileSystem.Changes
import AliasHoist.Proofs.Runs.Names
import AliasHoist.Proofs.World.Tasks

/-!
# Storing runs

What the tasks of the store do to the files of a state directory, task by task: which locations they
can touch whether or not they succeed, and what is there when they do.

## Main Definitions

* `IsReady`: a directory is there, so that making it does nothing;
* `opened`: the files once the directory of a run has been made;
* `Stored`: a file written through another one beside it, which is gone;
* `CanStore`: nothing stands in the way of writing a file like that;
* `Run.SaveEnds`: how recording a run ends;
* `KeepsBackup`: a backup with its content;
* `RunIndex.ofEntry`: the index that an entry of a directory holds.

## Main Statements

* `writeAtomically_changes`, `stored_of_writeAtomically`, `CanStore.exists_writeAtomically`;
* `Run.load_eq_ok_iff`: what it takes for a run to be found;
* `Run.on_save`, `Run.save_spec`, `Run.exists_save`: recording a run in a directory that is there;
* `keepsBackup_of_saveBackup`, `on_restoreBackup`: backups.
-/

namespace AliasHoist

open FileSystem

variable {fs after : FileSystem} {state : Path} {name text id : String}

/-! ## Directories that are there -/

/-- **A directory that is there.**  Making it does nothing.  The second part is about
the text of the path: it can be followed at all, or is empty and stands for the working
directory. -/
structure IsReady (state : Path) (fs : FileSystem) : Prop where
  leads : fs.Leads state
  followable : state.text = "" ∨ isFollowable state = true

/-- A directory in which something is located is there.  Following a path needs every
name but the last to be that of a directory. -/
theorem isReady_of_locate_child {location : Location} (plain : IsPlainName name)
    (h : fs.locate (state.child name) = .ok location) : IsReady state fs := by
  obtain ⟨leads, followable, _⟩ := (locate_child_iff plain).mp h
  exact ⟨leads, isFollowable_of_child plain followable⟩

/-- The directory around one that is there is there too. -/
theorem IsReady.of_child (h : IsReady (state.child name) fs) (plain : IsPlainName name) :
    IsReady state fs := by
  have nonempty : (state.child name).text ≠ "" := by
    rw [Path.child_text state plain]
    split <;> simp [plain.ne_empty]
  have located := locate_eq_ok_iff_follow.mpr ⟨h.followable.resolve_left nonempty, h.leads.1⟩
  exact isReady_of_locate_child plain located

/-- A directory stays there whatever is written, since writing removes no directory. -/
theorem IsReady.of_changes {written made : Set Location} (h : IsReady state fs)
    (changes : Changes written made fs after) : IsReady state after :=
  ⟨changes.leads h.leads, h.followable⟩

/-- Making a directory that is there does nothing and succeeds. -/
theorem IsReady.makeDirectories (h : IsReady state fs) :
    fs.makeDirectories state = (fs, .ok ()) :=
  makeDirectories_of_leads h.leads h.followable

/-- The files once the directory of a run has been made.  It is taken whether or not
making the directory succeeded, so that what happened up to a failure has a name as
well. -/
def opened (state : Path) (id : String) (fs : FileSystem) : FileSystem :=
  (fs.makeDirectories (state.child id)).1

/-- Making directories writes no file; where directories come to be is not said. -/
theorem opened_changes (state : Path) (id : String) (fs : FileSystem) :
    Changes ∅ Set.univ fs (opened state id fs) :=
  makeDirectories_changes fs _

/-- **The directory of a run is there once it has been made.**  Making it has to have
succeeded, and the name has to be plain, as a dot would stand for another directory. -/
theorem isReady_opened (plain : IsPlainName id)
    (opens : (fs.makeDirectories (state.child id)).2 = .ok ()) :
    IsReady (state.child id) (opened state id fs) := by
  have made : fs.makeDirectories (state.child id) = (opened state id fs, .ok ()) := Prod.ext rfl opens
  rcases isDirectory_of_makeDirectories made with nothing | there
  · exact absurd nothing (components_child_ne_nil state plain)
  · obtain ⟨location, found⟩ := isDirectory_eq_true_iff.mp there
    obtain ⟨located, directory, -⟩ := stat_eq_ok_iff.mp found
    obtain rfl := eq_placeOf_of_locate located
    obtain ⟨followable, follows⟩ := locate_eq_ok_iff_follow.mp located
    exact ⟨⟨follows, directory⟩, .inr followable⟩

/-- In a directory that is there, the directory of a run is all that is made.  Here it
is said where: with everything above it there already, one location is new at most. -/
theorem IsReady.opened_changes (h : IsReady state fs) (plain : IsPlainName id) :
    Changes ∅ {fs.placeOf state ++ [id]} fs (opened state id fs) :=
  makeDirectories_child_changes plain h.leads

/-- Making the directory of a run a second time does nothing, as when the run keeps its
second backup. -/
theorem IsReady.opened_eq (h : IsReady (state.child id) fs) : opened state id fs = fs := by
  rw [opened, h.makeDirectories]

/-- The location of a plain name in a directory.  Where a path leads does not depend on
which files there are; whether it leads anywhere does. -/
theorem locate_child (plain : IsPlainName name) {location : Location}
    (h : fs.locate (state.child name) = .ok location) : location = fs.placeOf state ++ [name] := by
  rw [eq_placeOf_of_locate h, placeOf_child state plain]

/-- A file can be read where it is located. -/
theorem stat_child_file {location : Location} {content : Content} {writable : Bool}
    (plain : IsPlainName name) (h : fs.locate (state.child name) = .ok location)
    (held : fs.entryAt? location = some (.file content writable)) :
    fs.stat (state.child name) = .ok (location, .file content writable) :=
  stat_eq_ok_iff.mpr ⟨h, held, Or.inr (demandsDirectory_child state plain)⟩

/-! ## Files that are written whole -/

/-- The locations of a file and of the one beside it.  Writing a file whole touches both
and leaves only the first. -/
def slot (place : Location) (name : String) : Set Location :=
  {place ++ [name], place ++ [name ++ ".tmp"]}

/-- **A file that was written through another one beside it**, which is gone.  That the
file beside it is gone belongs to the invariant, because a leftover could be in the way
the next time. -/
structure Stored (state : Path) (name text : String) (fs : FileSystem) : Prop where
  located : fs.locate (state.child name) = .ok (fs.placeOf state ++ [name])
  besideLocated :
    fs.locate (state.child (name ++ ".tmp")) = .ok (fs.placeOf state ++ [name ++ ".tmp"])
  held : fs.entryAt? (fs.placeOf state ++ [name]) = some (.file (.text text) true)
  besideFree : fs.entryAt? (fs.placeOf state ++ [name ++ ".tmp"]) = none

/-- **Nothing stands in the way of writing a file through another one beside it.**  The
paths have to be short enough, no directory may be in the place of the file, and the
file beside it must not be there. -/
structure CanStore (state : Path) (name : String) (fs : FileSystem) : Prop where
  located : fs.locate (state.child name) = .ok (fs.placeOf state ++ [name])
  besideLocated :
    fs.locate (state.child (name ++ ".tmp")) = .ok (fs.placeOf state ++ [name ++ ".tmp"])
  clear : fs.entryAt? (fs.placeOf state ++ [name]) ≠ some .directory
  besideFree : fs.entryAt? (fs.placeOf state ++ [name ++ ".tmp"]) = none

/-- What is stored can be stored anew.  Hence an index, once written, can be written
again and again. -/
theorem Stored.canStore (h : Stored state name text fs) : CanStore state name fs :=
  ⟨h.located, h.besideLocated, by simp [h.held], h.besideFree⟩

/-- A file that can be stored can be stored after changes elsewhere.  Nothing may have
been made there either, as a directory that is made is in the way like any other. -/
theorem CanStore.of_changes {written made : Set Location} (h : CanStore state name fs)
    (changes : Changes written made fs after)
    (hwritten : Disjoint (slot (fs.placeOf state) name) written)
    (hmade : Disjoint (slot (fs.placeOf state) name) made) : CanStore state name after := by
  have apart (location : Location) (mem : location ∈ slot (fs.placeOf state) name) :
      after.entryAt? location = fs.entryAt? location :=
    changes.entryAt?_eq (Set.disjoint_left.mp hwritten mem) (Set.disjoint_left.mp hmade mem)
  constructor
  · rw [changes.placeOf state]
    exact changes.locate h.located
  · rw [changes.placeOf state]
    exact changes.locate h.besideLocated
  · rw [changes.placeOf state, apart _ (Or.inl rfl)]
    exact h.clear
  · rw [changes.placeOf state, apart _ (Or.inr rfl)]
    exact h.besideFree

/-- What writing a file whole does, as one equation: the text goes to the file beside
it, which then takes its name.  A failure of the first half changes nothing, one of the
second leaves the file beside it. -/
theorem on_writeAtomically (path : Path) (text : String) (fs : FileSystem) :
    (writeAtomically path text).on fs =
      match fs.write (path.append ".tmp") (.text text) with
      | .error reason => (.error (.createFile (path.append ".tmp") reason), fs)
      | .ok middle =>
          match middle.rename (path.append ".tmp") path with
          | .error reason => (.error (.moveIntoPlace (path.append ".tmp") reason), middle)
          | .ok after => (.ok (), after) := by
  rw [writeAtomically, Task.on_bind _ fun _ => Task.isDeaf_change _ _, Task.on_writeText]
  cases fs.write (path.append ".tmp") (.text text) with
  | error reason => rfl
  | ok middle =>
      dsimp only
      rw [Task.on_change]
      cases middle.rename (path.append ".tmp") path <;> rfl

/-- **A file is written whole** by writing the one beside it and giving that its name.
Most users only need this inversion and not the equation. -/
theorem on_writeAtomically_eq_ok_iff {path : Path} :
    (writeAtomically path text).on fs = (.ok (), after) ↔
      ∃ middle, fs.write (path.append ".tmp") (.text text) = .ok middle ∧
        middle.rename (path.append ".tmp") path = .ok after := by
  rw [on_writeAtomically]
  cases fs.write (path.append ".tmp") (.text text) with
  | error reason => simp
  | ok middle => cases hrename : middle.rename (path.append ".tmp") path <;> simp [hrename]

/-- A file that cannot be written whole could not be written beside its place, or not be
moved there.  Both failures are those of files; what was to be written plays no part. -/
theorem on_writeAtomically_eq_error {path : Path} {reason : RunError}
    (h : (writeAtomically path text).on fs = (.error reason, after)) :
    ∃ failure, (after = fs ∧ reason = .createFile (path.append ".tmp") failure) ∨
      (fs.write (path.append ".tmp") (.text text) = .ok after ∧
        reason = .moveIntoPlace (path.append ".tmp") failure) := by
  rw [on_writeAtomically] at h
  cases hwrite : fs.write (path.append ".tmp") (.text text) with
  | error failure =>
      simp only [hwrite, Prod.mk.injEq, Except.error.injEq] at h
      obtain ⟨rfl, rfl⟩ := h
      exact ⟨failure, .inl ⟨rfl, rfl⟩⟩
  | ok middle =>
      simp only [hwrite] at h
      cases hrename : middle.rename (path.append ".tmp") path with
      | error failure =>
          simp only [hrename, Prod.mk.injEq, Except.error.injEq] at h
          obtain ⟨rfl, rfl⟩ := h
          exact ⟨failure, .inr ⟨rfl, rfl⟩⟩
      | ok found => simp [hrename] at h

/-- Writing a file whole does not depend on what has been said before. -/
@[simp] theorem isDeaf_writeAtomically (path : Path) (text : String) :
    (writeAtomically path text).IsDeaf :=
  (Task.isDeaf_writeText _ _ _).bind fun _ => Task.isDeaf_change _ _

/-- **A file that has been written whole is there**, wherever its path leads.  The
hypothesis excludes a path whose neighbour is itself, which no name of the program has.
-/
theorem stat_of_writeAtomically {path : Path}
    (apart : fs.placeOf (path.append ".tmp") ≠ fs.placeOf path)
    (h : (writeAtomically path text).on fs = (.ok (), after)) :
    Changes {fs.placeOf path, fs.placeOf (path.append ".tmp")} ∅ fs after ∧
      after.stat path = .ok (fs.placeOf path, .file (.text text) true) := by
  obtain ⟨middle, hwrite, hrename⟩ := on_writeAtomically_eq_ok_iff.mp h
  obtain ⟨first, held, located⟩ := write_changes hwrite
  obtain ⟨-, -, demands, -⟩ := write_eq_ok_iff.mp hwrite
  have hstat := stat_eq_ok_iff.mpr ⟨first.locate located, held, .inr demands⟩
  obtain ⟨goal, reached, -, demands, -⟩ := (rename_file_eq_ok_iff hstat).mp hrename
  obtain rfl := eq_placeOf_of_locate reached
  have place := first.placeOf path
  obtain ⟨second, held, -⟩ := rename_file_changes hstat hrename (by rwa [place])
  rw [place] at reached held second
  refine ⟨(first.mono ?_ subset_rfl).trans (second.mono ?_ subset_rfl), ?_⟩
  · exact Set.subset_insert _ _
  · rw [Set.pair_comm]
  · exact stat_eq_ok_iff.mpr ⟨second.locate reached, held, .inr demands⟩

section

variable (plain : IsPlainName name) (plain' : IsPlainName (name ++ ".tmp"))
include plain plain'

/-- The first half of writing a file whole.  It is stated with the place of the
directory and not with that of the path, as its users compare locations in one
directory. -/
theorem write_beside {middle : FileSystem}
    (h : fs.write ((state.child name).append ".tmp") (.text text) = .ok middle) :
    Changes {fs.placeOf state ++ [name ++ ".tmp"]} ∅ fs middle ∧
      middle.locate (state.child (name ++ ".tmp")) =
        .ok (middle.placeOf state ++ [name ++ ".tmp"]) ∧
      middle.stat ((state.child name).append ".tmp") =
        .ok (middle.placeOf state ++ [name ++ ".tmp"], .file (.text text) true) := by
  rw [Path.append_child state plain ".tmp" plain'] at h ⊢
  obtain ⟨changes, held, located⟩ := write_changes h
  rw [placeOf_child state plain'] at changes held located
  have located' := changes.locate located
  rw [← changes.placeOf state] at located' held
  exact ⟨changes, located', stat_child_file plain' located' held⟩

/-- The second half of writing a file whole.  Renaming replaces what was under the name,
so an old version of the file is gone in one step. -/
theorem rename_beside {middle : FileSystem}
    (hstat : middle.stat ((state.child name).append ".tmp") =
      .ok (middle.placeOf state ++ [name ++ ".tmp"], .file (.text text) true))
    (h : middle.rename ((state.child name).append ".tmp") (state.child name) = .ok after) :
    Changes (slot (middle.placeOf state) name) ∅ middle after ∧ Stored state name text after := by
  have apart : middle.placeOf state ++ [name ++ ".tmp"] ≠ middle.placeOf state ++ [name] := by
    simp only [ne_eq, List.append_cancel_left_eq, List.cons.injEq, and_true]
    intro same
    simpa using congrArg (fun text => text.toList.length) same
  have place : middle.placeOf (state.child name) = middle.placeOf state ++ [name] :=
    placeOf_child state plain
  obtain ⟨goal, located, _⟩ := (rename_file_eq_ok_iff hstat).mp h
  obtain rfl := locate_child plain located
  have beside := locate_of_stat hstat
  rw [Path.append_child state plain ".tmp" plain'] at beside
  obtain ⟨changes, held, gone⟩ := rename_file_changes hstat h (by rwa [place])
  rw [place] at changes held
  refine ⟨changes.mono ?_ subset_rfl, ?_⟩
  · rw [slot, Set.pair_comm]
  · rw [← changes.placeOf state] at located beside held gone
    exact ⟨changes.locate located, changes.locate beside, held, gone⟩

variable (fs state text) in
/-- **Writing a file whole touches that file and the one beside it**, whatever comes of
it.  This is the frame of all records: what is outside of `slot` needs no further
thought. -/
theorem writeAtomically_changes :
    Changes (slot (fs.placeOf state) name) ∅ fs
      ((writeAtomically (state.child name) text).on fs).2 := by
  rw [on_writeAtomically]
  cases hwrite : fs.write ((state.child name).append ".tmp") (.text text) with
  | error reason => exact .refl fs
  | ok middle =>
      obtain ⟨first, _, hstat⟩ := write_beside plain plain' hwrite
      have first : Changes (slot (fs.placeOf state) name) ∅ fs middle :=
        first.mono (by simp [slot]) subset_rfl
      dsimp only
      cases hrename : middle.rename ((state.child name).append ".tmp") (state.child name) with
      | error reason => exact first
      | ok after =>
          have second := (rename_beside plain plain' hstat hrename).1
          rw [first.placeOf state] at second
          exact first.trans second

/-- The same frame for an outcome that is at hand. -/
theorem changes_of_writeAtomically {outcome : Except RunError Unit}
    (h : (writeAtomically (state.child name) text).on fs = (outcome, after)) :
    Changes (slot (fs.placeOf state) name) ∅ fs after := by
  have changes := writeAtomically_changes fs state text plain plain'
  rwa [h] at changes

/-- **A file that has been written whole is stored.**  So success of the task means what
it should; nothing is asked about how things were before. -/
theorem stored_of_writeAtomically
    (h : (writeAtomically (state.child name) text).on fs = (.ok (), after)) :
    Stored state name text after := by
  obtain ⟨middle, hwrite, hrename⟩ := on_writeAtomically_eq_ok_iff.mp h
  exact (rename_beside plain plain' (write_beside plain plain' hwrite).2.2 hrename).2

/-- **Writing a file succeeds when nothing stands in the way.**  The old content plays
no part, and afterwards the file can be written anew, by `Stored.canStore`. -/
theorem CanStore.exists_writeAtomically (h : CanStore state name fs) (new : String) :
    ∃ after, (writeAtomically (state.child name) new).on fs = (.ok (), after) ∧
      Stored state name new after := by
  have hwrite : fs.write ((state.child name).append ".tmp") (.text new) =
      .ok (fs.put (fs.placeOf state ++ [name ++ ".tmp"]) (.file (.text new) true)) := by
    rw [Path.append_child state plain ".tmp" plain', write_eq_ok_iff]
    exact ⟨_, h.besideLocated, demandsDirectory_child state plain', Or.inl h.besideFree, rfl⟩
  generalize fs.put (fs.placeOf state ++ [name ++ ".tmp"]) (.file (.text new) true) = middle
    at hwrite
  obtain ⟨changes, _, hstat⟩ := write_beside plain plain' hwrite
  have free : middle.entryAt? (fs.placeOf state ++ [name]) ≠ some .directory := by
    intro directory
    rcases changes.directory_made directory with before | made
    · exact h.clear before
    · simp at made
  have hrename : middle.rename ((state.child name).append ".tmp") (state.child name) = .ok _ :=
    (rename_file_eq_ok_iff hstat).mpr ⟨_, changes.locate h.located, free, demandsDirectory_child state plain, rfl⟩
  exact ⟨_, on_writeAtomically_eq_ok_iff.mpr ⟨_, hwrite, hrename⟩,
    (rename_beside plain plain' hstat hrename).2⟩

end

namespace Stored

/-- Where something is stored, there is a directory around it. -/
theorem isReady (h : Stored state name text fs) (plain : IsPlainName name) : IsReady state fs :=
  isReady_of_locate_child plain h.located

/-- What is stored is a file that can be written to. -/
theorem stat (h : Stored state name text fs) (plain : IsPlainName name) :
    fs.stat (state.child name) = .ok (fs.placeOf state ++ [name], .file (.text text) true) :=
  stat_child_file plain h.located h.held

/-- What is stored is read back, character by character. -/
theorem readText (h : Stored state name text fs) (plain : IsPlainName name) :
    fs.readText (state.child name) = .ok text :=
  readText_eq_ok_iff.mpr ⟨_, _, h.stat plain⟩

/-- What is stored is there. -/
theorem exists? (h : Stored state name text fs) (plain : IsPlainName name) :
    fs.exists? (state.child name) = true :=
  exists?_eq_true_iff.mpr ⟨_, _, h.stat plain⟩

/-- What is stored stays stored, away from the changes.  Only the two locations count,
and of what is made only the one beside: a file is never replaced by a directory. -/
theorem of_changes {written made : Set Location} (h : Stored state name text fs)
    (changes : Changes written made fs after)
    (hwritten : Disjoint (slot (fs.placeOf state) name) written)
    (hmade : fs.placeOf state ++ [name ++ ".tmp"] ∉ made) : Stored state name text after := by
  have apart : fs.placeOf state ++ [name] ∉ written :=
    Set.disjoint_left.mp hwritten (Or.inl rfl)
  have apart' : fs.placeOf state ++ [name ++ ".tmp"] ∉ written :=
    Set.disjoint_left.mp hwritten (Or.inr rfl)
  constructor
  · rw [changes.placeOf state]
    exact changes.locate h.located
  · rw [changes.placeOf state]
    exact changes.locate h.besideLocated
  · rw [changes.placeOf state]
    exact changes.entryAt?_eq_some apart h.held
  · rw [changes.placeOf state, changes.entryAt?_eq apart' hmade]
    exact h.besideFree

end Stored

/-! ## The index -/

namespace RunIndex

/-- **The index that an entry of a directory holds**; without one it is empty.  The
reading of an index is split here into finding the entry and decoding it, so that a
frame lemma about the entry is one about the index. -/
def ofEntry : Option Entry → Except RunError RunIndex
  | none => .ok empty
  | some .directory => .error (.readIndex .isADirectory)
  | some (.file (.binary _) _) => .error (.readIndex .notText)
  | some (.file (.text text) _) =>
      (Json.decodeText (RunIndex.decode .text) text).mapError .parseIndex

/-- **The index is read from the entry at its location.**  The path has to lead
somewhere; a path that is too long fails before any entry is looked at. -/
theorem load_eq_ofEntry {location : Location} (h : fs.locate (file state) = .ok location) :
    load state fs = ofEntry (fs.entryAt? location) := by
  have demands : demandsDirectory (file state) = false :=
    demandsDirectory_child state isPlainName_index
  rw [load]
  cases hentry : fs.entryAt? location with
  | none =>
      have absent : fs.exists? (file state) = false := by
        rw [FileSystem.exists?, FileSystem.stat, h]
        simp [bind, Except.bind, hentry, Except.toOption]
      simp [absent, ofEntry]
  | some entry =>
      have hstat : fs.stat (file state) = .ok (location, entry) :=
        stat_eq_ok_iff.mpr ⟨h, hentry, Or.inr demands⟩
      have there : fs.exists? (file state) = true := exists?_eq_true_iff.mpr ⟨_, _, hstat⟩
      rw [there, FileSystem.readText, FileSystem.read, hstat]
      cases entry with
      | directory => rfl
      | file content writable => cases content <;> rfl

/-- An index that can be read is decoded. -/
theorem load_of_readText (read : fs.readText (file state) = .ok text) :
    load state fs = (Json.decodeText (decode .text) text).mapError .parseIndex := by
  obtain ⟨location, writable, found⟩ := readText_eq_ok_iff.mp read
  simp [load, exists?_eq_true_iff.mpr ⟨_, _, found⟩, read]

/-- The index is in the state directory under its own name. -/
theorem placeOf_file (fs : FileSystem) (state : Path) :
    fs.placeOf (file state) = fs.placeOf state ++ ["runs.json"] :=
  placeOf_child state isPlainName_index

@[simp] theorem isDeaf_save (index : RunIndex) (state : Path) : (index.save state).IsDeaf :=
  (Task.isDeaf_makeDirectories _ _).bind fun _ => isDeaf_writeAtomically _ _

/-- Once the directory has been made only the file of the index is written.  The index
has become a text before anything is written, so only files can fail. -/
theorem on_save_of_made {made : FileSystem} (h : fs.makeDirectories state = (made, .ok ()))
    (index : RunIndex) :
    (index.save state).on fs = (writeAtomically (file state) index.toJson.pretty).on made := by
  rw [save, Task.on_bind_of_ok (fun _ => isDeaf_writeAtomically _ _)]
  rw [Task.on_makeDirectories, h]
  rfl

/-- In a directory that is there only the file of the index is written. -/
theorem on_save (ready : IsReady state fs) (index : RunIndex) :
    (index.save state).on fs = (writeAtomically (file state) index.toJson.pretty).on fs :=
  on_save_of_made ready.makeDirectories index

end RunIndex

/-! ## Recording runs -/

namespace Run

/-- **A run is found where its file holds one.**  Not finding the file and not
understanding it are different failures, but success has this one form. -/
theorem load_eq_ok_iff {run : Run} :
    Run.load id state fs = .ok run ↔
      ∃ text, fs.readText (runFile id state) = .ok text ∧
        Json.decodeText (Run.decode .text) text = .ok run := by
  rw [Run.load]
  cases read : fs.readText (runFile id state) with
  | error reason => cases fs.exists? (runFile id state) <;> simp
  | ok text =>
      obtain ⟨location, writable, found⟩ := readText_eq_ok_iff.mp read
      rw [exists?_eq_true_iff.mpr ⟨_, _, found⟩]
      cases decoded : Json.decodeText (Run.decode .text) text <;> simp [decoded, Except.mapError]

/-- The file of a run that is found is there.  The place is the one the identifier leads
to, which may be out of the state directory: identifiers come from the command line. -/
theorem exists_stat_of_load {run : Run} (h : Run.load id state fs = .ok run) :
    ∃ text writable, fs.stat (runFile id state) =
      .ok (fs.placeOf (runFile id state), .file (.text text) writable) := by
  obtain ⟨text, read, -⟩ := load_eq_ok_iff.mp h
  obtain ⟨location, writable, found⟩ := readText_eq_ok_iff.mp read
  obtain rfl := eq_placeOf_of_stat found
  exact ⟨text, writable, found⟩

@[simp] theorem isDeaf_save (run : Run) (state : Path) : (run.save state).IsDeaf :=
  (Task.isDeaf_makeDirectories _ _).bind fun _ => (isDeaf_writeAtomically _ _).bind fun _ =>
    (Task.isDeaf_ask _ _).bind fun _ => RunIndex.isDeaf_save _ _

/-- The file of a run and the one beside it are two.  It holds for any identifier, with
slashes and dots in it or not, because the two names end differently. -/
theorem placeOf_runFile_ne (fs : FileSystem) (state : Path) (id : String) :
    fs.placeOf ((runFile id state).append ".tmp") ≠ fs.placeOf (runFile id state) := by
  obtain ⟨directory, name, place, beside⟩ := placeOf_runFile_beside fs state id
  rw [place, beside]
  intro same
  simpa using congrArg (fun location : Location => (location.map (·.toList.length)).getLast?) same

/-- **Recording a run once the directory has been made**: its file is written, and then
the index.  The index is read between the two writes, so a broken index leaves a run
with a file and without an entry. -/
theorem on_save_of_made {made : FileSystem} (h : fs.makeDirectories state = (made, .ok ()))
    (run : Run) :
    (run.save state).on fs =
      match (writeAtomically (runFile run.id state) run.toJson.pretty).on made with
      | (.error reason, middle) => (.error reason, middle)
      | (.ok (), middle) =>
          match RunIndex.load state middle with
          | .error reason => (.error reason, middle)
          | .ok index =>
              (writeAtomically (RunIndex.file state) (index.add run).toJson.pretty).on middle := by
  have opens : (Task.makeDirectories state RunError.files).on fs = (.ok (), made) := by
    rw [Task.on_makeDirectories, h]
    rfl
  rw [save, Task.on_bind_of_ok ?deaf opens]
  case deaf =>
    intro _
    exact (isDeaf_writeAtomically _ _).bind fun _ =>
      (Task.isDeaf_ask _ _).bind fun _ => RunIndex.isDeaf_save _ _
  rw [Task.on_bind _ fun _ => (Task.isDeaf_ask _ _).bind fun _ => RunIndex.isDeaf_save _ _]
  rcases hfirst : (writeAtomically (runFile run.id state) run.toJson.pretty).on made
    with ⟨outcome, middle⟩
  cases outcome with
  | error reason => rfl
  | ok done =>
      dsimp only
      rw [Task.on_bind _ fun _ => RunIndex.isDeaf_save _ _, Task.on_ask]
      cases RunIndex.load state middle with
      | error reason => rfl
      | ok index =>
          simp only [Except.mapError]
          obtain ⟨changes, -⟩ := stat_of_writeAtomically (placeOf_runFile_ne made state _) hfirst
          exact RunIndex.on_save_of_made (makeDirectories_again h changes) _

/-- **Recording a run in a directory that is there.**  It is the case of all runs but
the first. -/
theorem on_save (ready : IsReady state fs) (run : Run) :
    (run.save state).on fs =
      match (writeAtomically (runFile run.id state) run.toJson.pretty).on fs with
      | (.error reason, middle) => (.error reason, middle)
      | (.ok (), middle) =>
          match RunIndex.load state middle with
          | .error reason => (.error reason, middle)
          | .ok index =>
              (writeAtomically (RunIndex.file state) (index.add run).toJson.pretty).on middle :=
  on_save_of_made ready.makeDirectories run

/-- **How recording a run ends** once the directory has been made.  One constructor for
each way, so that a proof about recording is a case split with named facts and not four
nested matches. -/
inductive SaveEnds (run : Run) (state : Path) (made : FileSystem) :
    Except RunError Unit → FileSystem → Prop where
  /-- Its file cannot be written. -/
  | unwritten {reason : RunError} {after : FileSystem}
      (written : (writeAtomically (runFile run.id state) run.toJson.pretty).on made =
        (.error reason, after)) : SaveEnds run state made (.error reason) after
  /-- Its file is written, but the index cannot be read. -/
  | unread {reason : RunError} {after : FileSystem}
      (written : (writeAtomically (runFile run.id state) run.toJson.pretty).on made = (.ok (), after))
      (unread : RunIndex.load state after = .error reason) :
      SaveEnds run state made (.error reason) after
  /-- It ends as writing the index ends. -/
  | listed {middle after : FileSystem} {index : RunIndex} {outcome : Except RunError Unit}
      (written : (writeAtomically (runFile run.id state) run.toJson.pretty).on made = (.ok (), middle))
      (loaded : RunIndex.load state middle = .ok index)
      (listing : (writeAtomically (RunIndex.file state) (index.add run).toJson.pretty).on middle =
        (outcome, after)) : SaveEnds run state made outcome after

/-- **Recording a run ends in one of these ways.**  It is the inversion of
`Run.on_save_of_made`, and the last place where the nested matches are opened. -/
theorem saveEnds_of_made {made : FileSystem} (h : fs.makeDirectories state = (made, .ok ()))
    {run : Run} {outcome : Except RunError Unit} (saved : (run.save state).on fs = (outcome, after)) :
    SaveEnds run state made outcome after := by
  rw [on_save_of_made h] at saved
  rcases written : (writeAtomically (runFile run.id state) run.toJson.pretty).on made
    with ⟨reason | done, middle⟩
  · simp only [written, Prod.mk.injEq] at saved
    obtain ⟨rfl, rfl⟩ := saved
    exact .unwritten written
  · simp only [written] at saved
    cases loaded : RunIndex.load state middle with
    | error reason =>
        simp only [loaded, Prod.mk.injEq] at saved
        obtain ⟨rfl, rfl⟩ := saved
        exact .unread written loaded
    | ok index => exact .listed written loaded (by simpa only [loaded] using saved)

end Run

/-- The locations that recording a run touches.  Four locations, of which two hold a
file afterwards. -/
def recordSlots (place : Location) (id : String) : Set Location :=
  slot place (id ++ ".json") ∪ slot place "runs.json"

/-- The locations of a record are in the state directory. -/
theorem prefix_of_mem_recordSlots {place location : Location} {id : String}
    (h : location ∈ recordSlots place id) : place <+: location := by
  rcases h with (rfl | rfl) | (rfl | rfl) <;> exact List.prefix_append _ _

/-- **Recording a run whose file has a plain name touches that file and the index**,
whatever comes of it.  The name is asked to be plain and not to be an identifier, for
the sake of statements about runs with odd identifiers. -/
theorem Run.save_changes_of_plain (ready : IsReady state fs) (run : Run)
    (plain : IsPlainName (run.id ++ ".json")) (plain' : IsPlainName (run.id ++ ".json" ++ ".tmp")) :
    Changes (recordSlots (fs.placeOf state) run.id) ∅ fs ((run.save state).on fs).2 := by
  have first {outcome : Except RunError Unit} {middle : FileSystem}
      (written : (writeAtomically (runFile run.id state) run.toJson.pretty).on fs =
        (outcome, middle)) : Changes (recordSlots (fs.placeOf state) run.id) ∅ fs middle :=
    (changes_of_writeAtomically plain plain' written).mono Set.subset_union_left subset_rfl
  rcases saved : (run.save state).on fs with ⟨outcome, after⟩
  cases Run.saveEnds_of_made ready.makeDirectories saved with
  | unwritten written => exact first written
  | unread written unread => exact first written
  | listed written loaded listing =>
      have second := changes_of_writeAtomically isPlainName_index isPlainName_index_beside listing
      rw [(first written).placeOf state] at second
      exact (first written).trans (second.mono Set.subset_union_right subset_rfl)

/-- **Recording a run touches its file and the index**, whatever comes of it.  No
failure is excluded, so this is what every other record is protected by. -/
theorem Run.save_changes (ready : IsReady state fs) (run : Run) (isRunId : IsRunId run.id) :
    Changes (recordSlots (fs.placeOf state) run.id) ∅ fs ((run.save state).on fs).2 :=
  Run.save_changes_of_plain ready run isRunId.isPlainName_file isRunId.isPlainName_beside

/-- Files with different names touch different locations.  The three hypotheses are the
ways in which two pairs of names can meet. -/
theorem disjoint_slot {place : Location} {name other : String} (h : name ≠ other)
    (h' : name ≠ other ++ ".tmp") (h'' : name ++ ".tmp" ≠ other) :
    Disjoint (slot place name) (slot place other) := by
  rw [Set.disjoint_left]
  rintro location (rfl | rfl)
  · simp [slot, h, h']
  · simp [slot, h, h'']

namespace IsRunId

variable {id : String} (h : IsRunId id)
include h

/-- The file of a run and the index touch different locations.  No identifier is called
like the index, which a longer one could be. -/
theorem disjoint_slot_index (place : Location) :
    Disjoint (slot place (id ++ ".json")) (slot place "runs.json") := by
  have differ : ∀ {a b : String}, a.toList.length ≠ b.toList.length → a ≠ b := by
    rintro a _ hne rfl
    exact hne rfl
  refine disjoint_slot (differ ?_) (differ ?_) (differ ?_) <;> simp [h.length_eq]

end IsRunId

/-- Whether an operation on runs failed to write something.  These are the failures that
depend on the disk and not on what is stored there, such as a full disk or a missing
permission. -/
def RunError.isWriteFailure : RunError → Bool
  | .files _ | .createFile _ _ | .moveIntoPlace _ _ | .moveAside _ _ | .backUp _ _
  | .restore _ _ => true
  | _ => false

/-- Writing a file whole only fails by failing to write. -/
theorem isWriteFailure_of_writeAtomically {path : Path} {reason : RunError}
    (h : (writeAtomically path text).on fs = (.error reason, after)) :
    reason.isWriteFailure = true := by
  obtain ⟨failure, ⟨-, rfl⟩ | ⟨-, rfl⟩⟩ := on_writeAtomically_eq_error h
  · rfl
  · rfl

/-- In a directory in which the file of a run is stored, the index has its location.
The name of the index is shorter than that of a run's file, so the path of the one can
be followed when that of the other can. -/
theorem Stored.locate_index (h : Stored state (id ++ ".json") text fs) (isRunId : IsRunId id) :
    fs.locate (RunIndex.file state) = .ok (fs.placeOf state ++ ["runs.json"]) := by
  obtain ⟨leads, followable, _⟩ := (locate_child_iff isRunId.isPlainName_file).mp h.located
  refine (locate_child_iff isPlainName_index).mpr ⟨leads, ?_, by decide, rfl⟩
  refine isFollowable_child_of_le isRunId.isPlainName_file isPlainName_index (by decide) ?_
    followable
  have long := Text.length_le_utf8ByteSize (id ++ ".json")
  have short : ("runs.json" : String).utf8ByteSize = 9 := by decide
  simp only [String.toList_append, List.length_append, isRunId.length_eq] at long
  rw [short]
  exact Nat.le_trans (by decide) long

/-- Writing the file of a run leaves the index as it is.  It is read from the files as
they were before, where more is known about it. -/
theorem load_index_of_writeAtomically (isRunId : IsRunId id)
    (h : (writeAtomically (runFile id state) text).on fs = (.ok (), after)) :
    RunIndex.load state after =
      RunIndex.ofEntry (fs.entryAt? (fs.placeOf state ++ ["runs.json"])) := by
  have plain := isRunId.isPlainName_file
  have plain' := isRunId.isPlainName_beside
  have changes := changes_of_writeAtomically plain plain' h
  have stored : Stored state (id ++ ".json") text after := stored_of_writeAtomically plain plain' h
  rw [RunIndex.load_eq_ofEntry (stored.locate_index isRunId), changes.placeOf state]
  congr 1
  refine changes.entryAt?_eq ?_ (Set.notMem_empty _)
  exact Set.disjoint_right.mp (isRunId.disjoint_slot_index _) (Or.inl rfl)

/-- **What recording a run does when no write fails**: the file of the run is stored,
and the index with the run in it, if there is an index to put it in.  The outcome can
still be a failure: with an index that cannot be read, the file of the run is stored all
the same. -/
theorem Run.save_spec (ready : IsReady state fs) (run : Run) (isRunId : IsRunId run.id)
    {outcome : Except RunError Unit} (h : (run.save state).on fs = (outcome, after))
    (writes : ∀ reason, outcome = .error reason → reason.isWriteFailure = false) :
    Stored state (run.id ++ ".json") run.toJson.pretty after ∧
      ∀ index, RunIndex.ofEntry (fs.entryAt? (fs.placeOf state ++ ["runs.json"])) = .ok index →
        outcome = .ok () ∧ Stored state "runs.json" (index.add run).toJson.pretty after := by
  have plain := isRunId.isPlainName_file
  have plain' := isRunId.isPlainName_beside
  cases Run.saveEnds_of_made ready.makeDirectories h with
  | unwritten written =>
      have harmless := writes _ rfl
      rw [isWriteFailure_of_writeAtomically written] at harmless
      contradiction
  | unread written unread =>
      rw [load_index_of_writeAtomically isRunId written] at unread
      exact ⟨stored_of_writeAtomically plain plain' written, by simp [unread]⟩
  | listed written loaded listing =>
      have stored := stored_of_writeAtomically plain plain' written
      have second := changes_of_writeAtomically isPlainName_index isPlainName_index_beside listing
      rw [load_index_of_writeAtomically isRunId written] at loaded
      refine ⟨stored.of_changes second (isRunId.disjoint_slot_index _) (Set.notMem_empty _), ?_⟩
      rintro found hfound
      obtain rfl := Except.ok.inj (loaded.symm.trans hfound)
      cases outcome with
      | error reason =>
          have harmless := writes reason rfl
          rw [isWriteFailure_of_writeAtomically listing] at harmless
          contradiction
      | ok done =>
          exact ⟨rfl, stored_of_writeAtomically isPlainName_index isPlainName_index_beside listing⟩

/-- **Recording a run succeeds** when nothing stands in the way of its file or of the
index.  An index that is missing is as good as an empty one. -/
theorem Run.exists_save (ready : IsReady state fs) (run : Run) (isRunId : IsRunId run.id)
    (own : CanStore state (run.id ++ ".json") fs) (listed : CanStore state "runs.json" fs)
    {index : RunIndex}
    (hindex : RunIndex.ofEntry (fs.entryAt? (fs.placeOf state ++ ["runs.json"])) = .ok index) :
    ∃ after, (run.save state).on fs = (.ok (), after) := by
  obtain ⟨middle, hfirst, _⟩ := own.exists_writeAtomically isRunId.isPlainName_file
    isRunId.isPlainName_beside run.toJson.pretty
  have first := changes_of_writeAtomically isRunId.isPlainName_file isRunId.isPlainName_beside hfirst
  -- the index does not depend on the file of the run
  have apart := (isRunId.disjoint_slot_index (fs.placeOf state)).symm
  have still := listed.of_changes first apart (Set.disjoint_empty _)
  have loaded : RunIndex.load state middle = .ok index := by
    rw [RunIndex.load_eq_ofEntry still.located, first.placeOf,
      first.entryAt?_eq (Set.disjoint_left.mp apart (Or.inl rfl)) (Set.notMem_empty _), hindex]
  obtain ⟨after, hsecond, _⟩ := still.exists_writeAtomically isPlainName_index
    isPlainName_index_beside (index.add run).toJson.pretty
  refine ⟨after, ?_⟩
  rw [Run.on_save ready run, runFile, hfirst]
  dsimp only
  rw [loaded]
  exact hsecond

/-! ## Backups -/

/-- **A backup with its content.**  The location is part of it, as a backup that cannot
be reached by its path is of no use to a run that is undone. -/
structure KeepsBackup (state : Path) (id name text : String) (fs : FileSystem) : Prop where
  located : fs.locate ((state.child id).child name) = .ok (fs.placeOf state ++ [id, name])
  held : fs.entryAt? (fs.placeOf state ++ [id, name]) = some (.file (.text text) true)

namespace KeepsBackup

/-- A backup is read back as it was kept. -/
theorem readText (h : KeepsBackup state id name text fs) (plain : IsPlainName name) :
    fs.readText ((state.child id).child name) = .ok text :=
  readText_eq_ok_iff.mpr ⟨_, _, stat_child_file plain h.located h.held⟩

/-- A backup is kept while its own location is not written to; other files may come and
go around it. -/
theorem of_changes {written made : Set Location} (h : KeepsBackup state id name text fs)
    (changes : Changes written made fs after)
    (hwritten : fs.placeOf state ++ [id, name] ∉ written) :
    KeepsBackup state id name text after := by
  constructor
  · rw [changes.placeOf state]
    exact changes.locate h.located
  · rw [changes.placeOf state]
    exact changes.entryAt?_eq_some hwritten h.held

end KeepsBackup

/-- Keeping a backup does not depend on what has been said before. -/
@[simp] theorem isDeaf_saveBackup (path : Path) (text id : String) (state : Path) :
    (saveBackup path text id state).IsDeaf :=
  (Task.isDeaf_makeDirectories _ _).bind fun _ =>
    (Task.isDeaf_writeText _ _ _).bind fun _ => .pure _

/-- What keeping a backup does, as one equation: the directory of the run is made if
need be, and the text is written into it under a name made from the path of the source.
-/
theorem on_saveBackup (path : Path) (text id : String) (state : Path) (fs : FileSystem) :
    (saveBackup path text id state).on fs =
      match fs.makeDirectories (state.child id) with
      | (made, .error reason) => (.error (.files reason), made)
      | (made, .ok ()) =>
          match made.write ((state.child id).child (backupName path)) (.text text) with
          | .error reason => (.error (.backUp path reason), made)
          | .ok after => (.ok (backupName path), after) := by
  rw [saveBackup, Task.on_bind _ fun _ => (Task.isDeaf_writeText _ _ _).bind fun _ => .pure _,
    Task.on_makeDirectories]
  rcases fs.makeDirectories (state.child id) with ⟨made, outcome⟩
  cases outcome with
  | error reason => rfl
  | ok done =>
      simp only [Except.mapError]
      rw [Task.on_bind _ fun _ => .pure _, Task.on_writeText]
      cases made.write ((state.child id).child (backupName path)) (.text text) <;> rfl

/-- Every source of a run has its backup right in the directory of the run. -/
theorem placeOf_backup (plain : IsPlainName id) (path : Path) :
    fs.placeOf ((state.child id).child (backupName path)) =
      fs.placeOf state ++ [id, backupName path] := by
  rw [placeOf_child _ (isPlainName_backupName path), placeOf_child state plain]
  simp

/-- **A backup that has been kept is there**, and apart from the directory of the run
nothing else has changed.  A backup that was there under the name is overwritten, and so
a second backup of one source takes the place of the first. -/
theorem keepsBackup_of_saveBackup {path : Path} {found : String} (plain : IsPlainName id)
    (h : (saveBackup path text id state).on fs = (.ok found, after)) :
    found = backupName path ∧ IsReady (state.child id) (opened state id fs) ∧
      Changes {fs.placeOf state ++ [id, backupName path]} ∅ (opened state id fs) after ∧
      KeepsBackup state id (backupName path) text after := by
  rw [on_saveBackup] at h
  have place := (opened_changes state id fs).placeOf state
  rw [opened] at place ⊢
  rcases hdirectories : fs.makeDirectories (state.child id) with ⟨middle, outcome⟩
  rw [hdirectories] at place
  cases outcome with
  | error reason => simp [hdirectories] at h
  | ok done =>
      simp only [hdirectories] at h
      cases hwrite : middle.write ((state.child id).child (backupName path)) (.text text) with
      | error reason => simp [hwrite] at h
      | ok written =>
          simp only [hwrite, Prod.mk.injEq, Except.ok.injEq] at h
          obtain ⟨rfl, rfl⟩ := h
          obtain ⟨changes, held, located⟩ := write_changes hwrite
          have ready := isReady_of_locate_child (isPlainName_backupName path) located
          rw [placeOf_backup plain] at changes located held
          refine ⟨rfl, ready, place ▸ changes, ?_⟩
          rw [← changes.placeOf state] at located held
          exact ⟨changes.locate located, held⟩

/-- **Without a backup nothing but directories is new**: at most the directory of the run has been made,
whether it was that which failed or the writing of the backup. -/
theorem eq_opened_of_saveBackup_error {path : Path} {reason : RunError}
    (h : (saveBackup path text id state).on fs = (.error reason, after)) :
    after = opened state id fs := by
  rw [on_saveBackup] at h
  rw [opened]
  rcases hdirectories : fs.makeDirectories (state.child id) with ⟨middle, outcome⟩
  rw [hdirectories] at h
  cases outcome with
  | error failure => exact (Prod.mk.inj h).2.symm
  | ok done =>
      dsimp only at h
      cases hwrite : middle.write ((state.child id).child (backupName path)) (.text text) with
      | error failure =>
          rw [hwrite] at h
          exact (Prod.mk.inj h).2.symm
      | ok written => simp [hwrite] at h

/-- What bringing a file back does: its backup is read and written over it.  The digest
of the backup is not looked at. -/
theorem on_restoreBackup (change : FileChange) (id : String) (state : Path) (fs : FileSystem) :
    (restoreBackup change id state).on fs =
      match fs.readText ((state.child id).child change.backup) with
      | .error reason => (.error (.readBackup ((state.child id).child change.backup) reason), fs)
      | .ok text =>
          match fs.write change.path (.text text) with
          | .error reason => (.error (.restore change.path reason), fs)
          | .ok after => (.ok (), after) := by
  rw [restoreBackup, Task.on_bind _ fun _ => Task.isDeaf_writeText _ _ _, Task.on_ask]
  cases fs.readText ((state.child id).child change.backup) with
  | error reason => rfl
  | ok text =>
      simp only [Except.mapError]
      rw [Task.on_writeText]
      cases fs.write change.path (.text text) <;> rfl

/-- Bringing a file back does not depend on what has been said before. -/
@[simp] theorem isDeaf_restoreBackup (change : FileChange) (id : String) (state : Path) :
    (restoreBackup change id state).IsDeaf :=
  (Task.isDeaf_ask _ _).bind fun _ => Task.isDeaf_writeText _ _ _

end AliasHoist
