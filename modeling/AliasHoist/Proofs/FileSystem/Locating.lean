import AliasHoist.FileSystem.Access

/-!
# Where paths lead

A path leads to a location by its names alone: the directories on the way decide only whether it gets
there.  This module separates the two, so that a location can be spoken of before the directories on
the way to it exist, and so that a path that leads somewhere keeps leading there as long as
directories stay.

## Main Definitions

* `IsPlainName`: a name that stands for itself in a path;
* `FileSystem.placeOf`: the location that the names of a path spell;
* `FileSystem.obstacle?`: what keeps one name from being followed;
* `FileSystem.Leads`: what a path needs, its last name apart, to get there.

## Main Statements

* `follow_cons_eq_ok_iff`: names are followed one after the other;
* `eq_placeOf_of_locate`: a path is located at its place or not at all;
* `placeOf_child`, `locate_child_iff`: a path continued by a plain name.
-/

namespace AliasHoist

/-! ## Pieces between slashes -/

namespace Path

/-- There is always a piece, if only an empty one. -/
theorem splitSlashes_ne_nil (cs : List Char) : splitSlashes cs ≠ [] := by
  cases cs with
  | nil => simp [splitSlashes]
  | cons c rest =>
      rw [splitSlashes]
      split
      · simp
      · split <;> simp

/-- A text without slashes is its only piece. -/
theorem splitSlashes_of_not_mem {cs : List Char} (h : '/' ∉ cs) : splitSlashes cs = [cs] := by
  induction cs with
  | nil => rfl
  | cons c rest ih =>
      rw [List.mem_cons, not_or] at h
      rw [splitSlashes, if_neg (Ne.symm h.1), ih h.2]

/-- A slash separates what is before it from what is after it.  So continuing a path by
a slash and a name adds one piece. -/
theorem splitSlashes_append_slash (before after : List Char) :
    splitSlashes (before ++ '/' :: after) = splitSlashes before ++ splitSlashes after := by
  induction before with
  | nil => simp [splitSlashes]
  | cons c rest ih =>
      rw [List.cons_append, splitSlashes, splitSlashes, ih]
      split
      · rfl
      · cases hrest : splitSlashes rest with
        | nil => exact absurd hrest (splitSlashes_ne_nil rest)
        | cons piece pieces => rfl

/-- No piece has a slash in it.  Every piece can therefore be used as a name. -/
theorem slash_not_mem_of_mem_splitSlashes {cs piece : List Char} (h : piece ∈ splitSlashes cs) :
    '/' ∉ piece := by
  induction cs generalizing piece with
  | nil => simp_all [splitSlashes]
  | cons c rest ih =>
      rw [splitSlashes] at h
      split at h
      · rcases List.mem_cons.mp h with rfl | later
        · simp
        · exact ih later
      · rename_i hc
        cases hrest : splitSlashes rest with
        | nil => exact absurd hrest (splitSlashes_ne_nil rest)
        | cons first others =>
            simp only [hrest, List.mem_cons] at h
            rcases h with rfl | later
            · have within : first ∈ splitSlashes rest := by simp [hrest]
              simp [ih within, Ne.symm hc]
            · exact ih (by simp [hrest, later])

end Path

/-! ## Plain names -/

/-- **A name that stands for itself in a path.**  Names that the program makes are
plain, while those that users give need not be. -/
structure IsPlainName (name : String) : Prop where
  ne_empty : name ≠ ""
  no_slash : '/' ∉ name.toList
  ne_dot : name ≠ "."
  ne_dots : name ≠ ".."

/-- A name without slashes that is longer than two characters is plain.  All names that
the program makes are longer, so this settles them without looking at dots. -/
theorem isPlainName_of_length {name : String} (long : 2 < name.toList.length)
    (noSlash : '/' ∉ name.toList) : IsPlainName name where
  ne_empty := by rintro rfl; simp at long
  no_slash := noSlash
  ne_dot := by rintro rfl; simp at long
  ne_dots := by rintro rfl; simp at long

namespace IsPlainName

variable {name : String} (h : IsPlainName name)
include h

/-- A plain name has characters. -/
theorem toList_ne_nil : name.toList ≠ [] := by
  intro nil
  exact h.ne_empty (String.toList_eq_nil_iff.mp nil)

/-- A plain name is no absolute path. -/
theorem isAbsolute_eq_false : ({ text := name } : Path).isAbsolute = false := by
  rw [Path.isAbsolute]
  cases hname : name.toList with
  | nil => rfl
  | cons c rest =>
      have := h.no_slash
      simp only [hname, List.mem_cons, not_or] at this
      simpa using Ne.symm this.1

end IsPlainName

namespace Path

variable {name : String}

/-- The text of a path continued by a plain name.  A slash is put between the two unless
there is one, as in the root. -/
theorem child_text (path : Path) (plain : IsPlainName name) :
    (path.child name).text =
      if path.text.isEmpty || path.text.toList.getLast? == some '/' then path.text ++ name
      else path.text ++ "/" ++ name := by
  rw [child, join, plain.isAbsolute_eq_false]
  simp only [Bool.false_eq_true, if_false]
  split <;> rfl

/-- A path continued by a plain name starts where the path starts.  Otherwise the name
would replace the path. -/
theorem isAbsolute_child (path : Path) (plain : IsPlainName name) :
    (path.child name).isAbsolute = path.isAbsolute := by
  have start := plain.isAbsolute_eq_false
  rw [isAbsolute] at start
  rw [isAbsolute, child_text path plain, isAbsolute]
  cases htext : path.text.toList with
  | nil =>
      have : path.text = "" := String.toList_eq_nil_iff.mp htext
      simpa [this] using start
  | cons c rest => split <;> simp [htext]

/-- Putting a text at the end of a path puts it at the end of its last name.  It is how
the path of the file beside a record is the path of a name in the same directory. -/
theorem append_child (path : Path) (plain : IsPlainName name) (text : String)
    (plain' : IsPlainName (name ++ text)) :
    (path.child name).append text = path.child (name ++ text) := by
  have htext : ((path.child name).append text).text = (path.child (name ++ text)).text := by
    rw [child_text path plain', append, child_text path plain]
    split <;> simp [String.append_assoc]
  cases hchild : path.child (name ++ text) with
  | mk found => rw [hchild] at htext; rw [append] at *; exact congrArg Path.mk htext

end Path

namespace FileSystem

/-- A path continued by a plain name has that name after all others.  Places are made
from names, so this is where the text of a path is left behind. -/
theorem pathNames_child (path : Path) {name : String} (plain : IsPlainName name) :
    pathNames (path.child name) = pathNames path ++ [name] := by
  have last : Path.splitSlashes name.toList = [name.toList] :=
    Path.splitSlashes_of_not_mem plain.no_slash
  have kept := plain.toList_ne_nil
  rw [pathNames, Path.child_text path plain, pathNames]
  by_cases hempty : path.text = ""
  · simp [hempty, last, kept, Path.splitSlashes]
  · by_cases hslash : path.text.toList.getLast? = some '/'
    · obtain ⟨front, hfront⟩ := List.getLast?_eq_some_iff.mp hslash
      simp [hfront, List.append_assoc, Path.splitSlashes_append_slash, last, kept,
        Path.splitSlashes]
    · simp [hempty, hslash, List.append_assoc, Path.splitSlashes_append_slash, last, kept]

/-- A path continued by a plain name has at least that name as a component.  So a
directory under such a path is one that has to be made. -/
theorem components_child_ne_nil (path : Path) {name : String} (plain : IsPlainName name) :
    (path.child name).components ≠ [] := by
  have mem : name ∈ pathNames (path.child name) := by simp [pathNames_child path plain]
  obtain ⟨piece, hpiece, rfl⟩ := List.mem_map.mp mem
  have component : Path.componentOf? piece = some (.name (String.ofList piece)) := by
    have notDot : piece ≠ ['.'] := fun same => plain.ne_dot (by rw [same])
    have notDots : piece ≠ ['.', '.'] := fun same => plain.ne_dots (by rw [same])
    have notEmpty : piece ≠ [] := fun same => plain.ne_empty (by rw [same])
    rw [Path.componentOf?.eq_def]
    split <;> simp_all
  have some : .name (String.ofList piece) ∈
      (Path.splitSlashes (path.child (String.ofList piece)).text.toList).filterMap
        Path.componentOf? :=
    List.mem_filterMap.mpr ⟨piece, (List.mem_filter.mp hpiece).1, component⟩
  rw [Path.components]
  split
  · simp
  · split
    · simp
    · exact List.ne_nil_of_mem some

/-! ## Places -/

/-- The location that names spell from a location.  Two dots at the root stay there. -/
def walk : Location → List String → Location
  | location, [] => location
  | location, name :: rest =>
      if name = "." then walk location rest
      else if name = ".." then walk location.dropLast rest
      else walk (location ++ [name]) rest

/-- Where one name leads from a location.  It is one step of `walk`, and of following a
path too. -/
def nextLocation (location : Location) (name : String) : Location :=
  if name = "." then location
  else if name = ".." then location.dropLast
  else location ++ [name]

/-- Names are walked one after the other. -/
theorem walk_cons (location : Location) (name : String) (rest : List String) :
    walk location (name :: rest) = walk (nextLocation location name) rest := by
  rw [walk, nextLocation]
  split
  · rfl
  · split <;> rfl

/-- Names can be walked in two parts. -/
theorem walk_append (location : Location) (xs ys : List String) :
    walk location (xs ++ ys) = walk (walk location xs) ys := by
  induction xs generalizing location with
  | nil => rfl
  | cons name rest ih => rw [List.cons_append, walk_cons, walk_cons, ih]

/-- A plain name leads one directory down. -/
theorem nextLocation_of_isPlainName (location : Location) {name : String}
    (plain : IsPlainName name) : nextLocation location name = location ++ [name] := by
  rw [nextLocation, if_neg plain.ne_dot, if_neg plain.ne_dots]

/-- So does a path of one plain name. -/
theorem walk_singleton (location : Location) {name : String} (plain : IsPlainName name) :
    walk location [name] = location ++ [name] := by
  rw [walk_cons, nextLocation_of_isPlainName location plain, walk]

/-- Where the names of a path start. -/
def origin (fs : FileSystem) (path : Path) : Location :=
  if path.isAbsolute then [] else fs.workingDirectory

/-- **The location that the names of a path spell**, whether or not the path gets there.
Having it as a total function is what lets a frame condition be stated before the
directories exist. -/
def placeOf (fs : FileSystem) (path : Path) : Location := walk (fs.origin path) (pathNames path)

/-- Whether a text can be followed as a path.  The conditions are on the text, so they
are the same in all file systems. -/
def isFollowable (path : Path) : Bool :=
  !path.text.isEmpty && !path.text.toList.contains '\x00' && path.text.utf8ByteSize < pathLimit

variable {fs : FileSystem}

/-- Where a path starts depends on the working directory only. -/
theorem origin_of_workingDirectory_eq {other : FileSystem}
    (same : other.workingDirectory = fs.workingDirectory) (path : Path) :
    other.origin path = fs.origin path := by
  rw [origin, same, origin]

/-- Places depend on the working directory only.  No operation changes it, so places are
fixed for a whole session. -/
theorem placeOf_of_workingDirectory_eq {other : FileSystem}
    (same : other.workingDirectory = fs.workingDirectory) (path : Path) :
    other.placeOf path = fs.placeOf path := by
  rw [placeOf, origin_of_workingDirectory_eq same, placeOf]

/-- A path that is continued starts where it did. -/
theorem origin_child (path : Path) {name : String} (plain : IsPlainName name) :
    fs.origin (path.child name) = fs.origin path := by
  rw [origin, Path.isAbsolute_child path plain, origin]

/-- **The place of a path continued by a plain name.**  Together with
`isPlainName_of_length` it gives the place of everything in a state directory. -/
theorem placeOf_child (path : Path) {name : String} (plain : IsPlainName name) :
    fs.placeOf (path.child name) = fs.placeOf path ++ [name] := by
  rw [placeOf, pathNames_child path plain, walk_append, walk_singleton _ plain,
    origin_child path plain, placeOf]

/-! ## Following names -/

/-- What keeps a name from being followed at a location, if anything does.  The reasons
come in the order in which they are found. -/
def obstacle? (fs : FileSystem) (location : Location) (name : String) : Option IoError :=
  match fs.entryAt? location with
  | none => some .notFound
  | some (.file _ _) => some .notADirectory
  | some .directory =>
      if name ≠ "." ∧ name ≠ ".." ∧ longestName < name.utf8ByteSize then some .nameTooLong else none

/-- **A name is followed from a directory**, if it is not too long.  The dots are never
too long. -/
theorem obstacle?_eq_none_iff {location : Location} {name : String} :
    fs.obstacle? location name = none ↔
      fs.entryAt? location = some .directory ∧
        (name = "." ∨ name = ".." ∨ name.utf8ByteSize ≤ longestName) := by
  rw [obstacle?]
  cases fs.entryAt? location with
  | none => simp
  | some entry =>
      cases entry with
      | file content writable => simp
      | directory =>
          simp only [ite_eq_right_iff, reduceCtorEq, imp_false, true_and]
          by_cases hdot : name = "." <;> by_cases hdots : name = ".." <;> simp [hdot, hdots]

/-- One name is followed.  It splits following into the obstacle, which depends on
files, and the next location, which does not. -/
theorem follow_cons (location : Location) (name : String) (rest : List String) :
    fs.follow location (name :: rest) =
      match fs.obstacle? location name with
      | some reason => .error reason
      | none => fs.follow (nextLocation location name) rest := by
  rw [follow, obstacle?]
  cases fs.entryAt? location with
  | none => rfl
  | some entry =>
      cases entry with
      | file content writable => rfl
      | directory =>
          dsimp only
          rw [nextLocation]
          by_cases hdot : name = "."
          · simp [hdot]
          · by_cases hdots : name = ".."
            · simp [hdots]
            · by_cases long : longestName < name.utf8ByteSize <;> simp [hdot, hdots, long]

/-- Names are followed one after the other.  Inductions over following use this form. -/
theorem follow_cons_eq_ok_iff {location found : Location} {name : String} {rest : List String} :
    fs.follow location (name :: rest) = .ok found ↔
      fs.obstacle? location name = none ∧
        fs.follow (nextLocation location name) rest = .ok found := by
  rw [follow_cons]
  cases fs.obstacle? location name <;> simp

/-- Names that are followed to the end lead to the location that they spell.  The files
decide only whether the end is reached. -/
theorem eq_walk_of_follow {location found : Location} {names : List String}
    (h : fs.follow location names = .ok found) : found = walk location names := by
  induction names generalizing location with
  | nil => exact (Except.ok.inj h).symm
  | cons name rest ih =>
      rw [walk_cons]
      exact ih (follow_cons_eq_ok_iff.mp h).2

/-- Names can be followed in two parts. -/
theorem follow_append (location : Location) (xs ys : List String) :
    fs.follow location (xs ++ ys) = (fs.follow location xs).bind (fs.follow · ys) := by
  induction xs generalizing location with
  | nil => rfl
  | cons name rest ih =>
      rw [List.cons_append, follow_cons, follow_cons]
      cases fs.obstacle? location name with
      | some reason => rfl
      | none => exact ih _

/-- A plain name is followed from a directory, if it is not too long.  What is under the
name plays no part, and there need not be anything. -/
theorem follow_singleton_eq_ok_iff {location found : Location} {name : String}
    (plain : IsPlainName name) :
    fs.follow location [name] = .ok found ↔
      fs.entryAt? location = some .directory ∧ name.utf8ByteSize ≤ longestName ∧
        found = location ++ [name] := by
  rw [follow_cons_eq_ok_iff, obstacle?_eq_none_iff, nextLocation_of_isPlainName location plain,
    follow]
  simp [plain.ne_dot, plain.ne_dots, and_assoc, eq_comm]

/-! ## Locating paths -/

/-- A path is located by following its names, if its text can be followed at all. -/
theorem locate_eq_ok_iff_follow {path : Path} {location : Location} :
    fs.locate path = .ok location ↔
      isFollowable path = true ∧
        fs.follow (fs.origin path) (pathNames path) = .ok location := by
  rw [locate, isFollowable, origin]
  by_cases hempty : path.text.isEmpty = true
  · simp [hempty]
  · by_cases hnul : '\x00' ∈ path.text.toList
    · simp [hempty, hnul]
    · by_cases hlong : pathLimit ≤ path.text.utf8ByteSize
      · simp [hempty, hnul, hlong, Nat.not_lt_of_le hlong]
      · simp [hempty, hnul, hlong, Nat.lt_of_not_le hlong]

/-- **A path is located at its place.**  Hence statements about locations can be made
about places, which always exist. -/
theorem eq_placeOf_of_locate {path : Path} {location : Location}
    (h : fs.locate path = .ok location) : location = fs.placeOf path :=
  eq_walk_of_follow (locate_eq_ok_iff_follow.mp h).2

/-- **What a path needs to get to its place, whatever its last name**: its directories
are there.  The limit on its text is left out, since for the empty path it would be
wrong. -/
def Leads (fs : FileSystem) (path : Path) : Prop :=
  fs.follow (fs.origin path) (pathNames path) = .ok (fs.placeOf path) ∧
    fs.entryAt? (fs.placeOf path) = some .directory

/-- **A path continued by a plain name** is located when the path leads to a directory
and neither the name nor the whole is too long.  It is an iff, so it serves both to use
what is located and to show that something is. -/
theorem locate_child_iff {path : Path} {name : String} {location : Location}
    (plain : IsPlainName name) :
    fs.locate (path.child name) = .ok location ↔
      fs.Leads path ∧ isFollowable (path.child name) = true ∧
        name.utf8ByteSize ≤ longestName ∧ location = fs.placeOf path ++ [name] := by
  rw [locate_eq_ok_iff_follow, pathNames_child path plain, origin_child path plain, follow_append]
  cases hfollow : fs.follow (fs.origin path) (pathNames path) with
  | error reason => simp [Leads, hfollow, Except.bind]
  | ok found =>
      obtain rfl : found = fs.placeOf path := eq_walk_of_follow hfollow
      simp only [Except.bind, follow_singleton_eq_ok_iff plain, Leads, hfollow, true_and]
      constructor
      · rintro ⟨followable, directory, short, rfl⟩
        exact ⟨directory, followable, short, rfl⟩
      · rintro ⟨directory, followable, short, rfl⟩
        exact ⟨followable, directory, short, rfl⟩

/-- A path in front of one that can be followed is empty or can be followed too.  The
front is shorter, and has no other characters. -/
theorem isFollowable_of_child {path : Path} {name : String} (plain : IsPlainName name)
    (h : isFollowable (path.child name) = true) :
    path.text = "" ∨ isFollowable path = true := by
  by_cases hempty : path.text = ""
  · exact Or.inl hempty
  · right
    simp only [isFollowable, Bool.and_eq_true, Bool.not_eq_true', decide_eq_true_eq] at h ⊢
    rw [Path.child_text path plain] at h
    obtain ⟨⟨_, noNul⟩, short⟩ := h
    refine ⟨⟨by simpa using hempty, ?_⟩, ?_⟩
    · split at noNul <;> simp_all
    · split at short <;> simp only [String.utf8ByteSize_append] at short <;> omega

end FileSystem

end AliasHoist
