import AliasHoist.Path

/-!
# File systems

A file system is a set of files and directories, named by the list of names on the way from the
root, together with the directory that relative paths start from.

## Main Definitions

* `Content`: the content of a file, a text or bytes that are none;
* `Entry`: a directory or a file;
* `FileSystem`: entries by name, with `entryAt?`, `put`, `erase`;
* `IoError`: why an operation on files fails;
* `FileSystem.locate`: the place that a path names.

## Design Notes

A path is followed name by name.  Every name but the last has to be that of a directory; the last
one need not exist.  The dots are followed like names, so they too need a directory to start from.
A slash at the end of a path demands that it names a directory.

There are no links.  A symbolic link to a file is one more name of it, as a path with dots is: its
canonical path is that of the file, and the file is what is read and written under that name.
-/

namespace AliasHoist

/-- The content of a file. -/
inductive Content where
  | text (value : String)
  /-- Bytes that are not the UTF-8 form of any text. -/
  | binary (bytes : List UInt8)
  deriving DecidableEq, Repr

namespace Content

/-- The bytes of a content. -/
def bytes : Content → List UInt8
  | text value => value.toUTF8.data.toList
  | binary bytes => bytes

/-- The content with given bytes. -/
def ofBytes (bytes : List UInt8) : Content :=
  match String.fromUTF8? ⟨bytes.toArray⟩ with
  | some value => text value
  | none => binary bytes

end Content

/-- A directory or a file.  A file that is not writable keeps its content whatever is written. -/
inductive Entry where
  | directory
  | file (content : Content) (writable : Bool)
  deriving DecidableEq, Repr

/-- Why an operation on files fails. -/
inductive IoError where
  | notFound
  | permissionDenied
  | alreadyExists
  | notADirectory
  | isADirectory
  | invalidArgument
  | nameTooLong
  | notEmpty
  | invalidName
  | notText
  deriving DecidableEq, Repr

namespace IoError

/-- The reason in words. -/
def message : IoError → String
  | notFound => "No such file or directory (os error 2)"
  | permissionDenied => "Permission denied (os error 13)"
  | alreadyExists => "File exists (os error 17)"
  | notADirectory => "Not a directory (os error 20)"
  | isADirectory => "Is a directory (os error 21)"
  | invalidArgument => "Invalid argument (os error 22)"
  | nameTooLong => "File name too long (os error 36)"
  | notEmpty => "Directory not empty (os error 39)"
  | invalidName => "file name contained an unexpected NUL byte"
  | notText => "stream did not contain valid UTF-8"

end IoError

/-- The names on the way from the root to a file or directory. -/
abbrev Location := List String

/-- **A file system.** -/
structure FileSystem where
  workingDirectory : Location
  entries : List (Location × Entry)
  deriving DecidableEq, Repr

namespace FileSystem

/-- What is at a location.  The root is always a directory. -/
def entryAt? (fs : FileSystem) (location : Location) : Option Entry :=
  if location = [] then some .directory else fs.entries.lookup location

/-- Puts an entry at a location, in the place of what was there. -/
def put (fs : FileSystem) (location : Location) (entry : Entry) : FileSystem :=
  { fs with entries := (location, entry) :: fs.entries.filter (·.1 != location) }

/-- Removes what is at a location. -/
def erase (fs : FileSystem) (location : Location) : FileSystem :=
  { fs with entries := fs.entries.filter (·.1 != location) }

/-- Removes what is at a location and everything below it. -/
def eraseBelow (fs : FileSystem) (location : Location) : FileSystem :=
  { fs with entries := fs.entries.filter fun entry => !location.isPrefixOf entry.1 }

theorem lookup_filter_ne {α β : Type} [BEq α] [LawfulBEq α] (entries : List (α × β)) {a b : α}
    (h : b ≠ a) : (entries.filter (·.1 != a)).lookup b = entries.lookup b := by
  induction entries with
  | nil => rfl
  | cons entry rest ih =>
      obtain ⟨key, value⟩ := entry
      by_cases hk : key = a
      · subst hk
        have hb : (b == key) = false := by simpa using h
        simp [List.lookup_cons, ih, hb]
      · simp only [bne_iff_ne, ne_eq, hk, not_false_eq_true, List.filter_cons_of_pos,
          List.lookup_cons]
        split <;> simp_all

/-- What has been put somewhere is there. -/
theorem entryAt?_put_self (fs : FileSystem) {location : Location} (entry : Entry)
    (h : location ≠ []) : (fs.put location entry).entryAt? location = some entry := by
  simp [entryAt?, put, h]

/-- Putting an entry somewhere leaves every other location as it was. -/
theorem entryAt?_put_of_ne (fs : FileSystem) {location other : Location} (entry : Entry)
    (h : other ≠ location) : (fs.put location entry).entryAt? other = fs.entryAt? other := by
  have hb : (other == location) = false := by simpa using h
  simp only [entryAt?, put, List.lookup_cons, hb]
  rw [lookup_filter_ne fs.entries h]

/-- Removing what is at a location leaves every other location as it was. -/
theorem entryAt?_erase_of_ne (fs : FileSystem) {location other : Location}
    (h : other ≠ location) : (fs.erase location).entryAt? other = fs.entryAt? other := by
  simp only [entryAt?, erase]
  rw [lookup_filter_ne fs.entries h]

/-! ## Following paths -/

/-- The longest name that a file can have, in bytes. -/
def longestName : Nat := 255

/-- The length that paths have to stay below, in bytes. -/
def pathLimit : Nat := 4096

/-- **Follows names from a location.** -/
def follow (fs : FileSystem) (location : Location) : List String → Except IoError Location
  | [] => .ok location
  | name :: rest =>
      match fs.entryAt? location with
      | none => .error .notFound
      | some (.file _ _) => .error .notADirectory
      | some .directory =>
          if name = "." then fs.follow location rest
          else if name = ".." then fs.follow location.dropLast rest
          else if longestName < name.utf8ByteSize then .error .nameTooLong
          else fs.follow (location ++ [name]) rest

/-- The names in a path, dots included. -/
def pathNames (path : Path) : List String :=
  ((Path.splitSlashes path.text.toList).filter (· != [])).map String.ofList

/-- Whether a path demands a directory. -/
def demandsDirectory (path : Path) : Bool := path.text.toList.getLast? == some '/'

/-- **The location that a path names**, whether or not something is there. -/
def locate (fs : FileSystem) (path : Path) : Except IoError Location :=
  if path.text.isEmpty then .error .notFound
  else if path.text.toList.contains '\x00' then .error .invalidName
  else if pathLimit ≤ path.text.utf8ByteSize then .error .nameTooLong
  else fs.follow (if path.isAbsolute then [] else fs.workingDirectory) (pathNames path)

end FileSystem

end AliasHoist
