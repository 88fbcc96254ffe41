import AliasHoist.FileSystem.Basic

/-!
# Operations on files

What programs do with files and directories.  Operations that change the file system give the new
one; a failed operation changes nothing, except where it says otherwise.
-/

namespace AliasHoist.FileSystem

variable (fs : FileSystem)

/-! ## Looking -/

/-- **What a path names**, with its location. -/
def stat (path : Path) : Except IoError (Location × Entry) := do
  let location ← fs.locate path
  match fs.entryAt? location with
  | none => .error .notFound
  | some .directory => .ok (location, .directory)
  | some (.file content writable) =>
      if demandsDirectory path then .error .notADirectory
      else .ok (location, .file content writable)

/-- Whether a path names anything. -/
def exists? (path : Path) : Bool := (fs.stat path).toOption.isSome

/-- Whether a path names a file. -/
def isFile (path : Path) : Bool :=
  match fs.stat path with
  | .ok (_, .file _ _) => true
  | _ => false

/-- Whether a path names a directory. -/
def isDirectory (path : Path) : Bool :=
  match fs.stat path with
  | .ok (_, .directory) => true
  | _ => false

/-- The content of a file. -/
def read (path : Path) : Except IoError Content := do
  match ← fs.stat path with
  | (_, .directory) => .error .isADirectory
  | (_, .file content _) => .ok content

/-- The content of a file as a text. -/
def readText (path : Path) : Except IoError String := do
  match ← fs.read path with
  | .text value => .ok value
  | .binary _ => .error .notText

/-- A location as an absolute path. -/
def pathOf (location : Location) : Path := { text := "/" ++ "/".intercalate location }

/-- The absolute path, without dots, of what a path names. -/
def canonical (path : Path) : Except IoError Path := do
  let (location, _) ← fs.stat path
  return pathOf location

/-- Everything below a location, each with the names that lead there. -/
def below (location : Location) : List (List String × Entry) :=
  fs.entries.filterMap fun (name, entry) =>
    if location.isPrefixOf name && location.length < name.length then
      some (name.drop location.length, entry)
    else none

/-- What is directly in a location. -/
def childrenOf (location : Location) : List (String × Entry) :=
  (fs.below location).filterMap fun (names, entry) =>
    match names with
    | [name] => some (name, entry)
    | _ => none

/-! ## Changing -/

/-- **Writes a file**, and makes it if it is not there. -/
def write (path : Path) (content : Content) : Except IoError FileSystem := do
  let location ← fs.locate path
  match fs.entryAt? location with
  | some .directory => .error .isADirectory
  | some (.file _ writable) =>
      if demandsDirectory path then .error .notADirectory
      else if writable then .ok (fs.put location (.file content true))
      else .error .permissionDenied
  | none =>
      if demandsDirectory path then .error .isADirectory
      else .ok (fs.put location (.file content true))

/-- Makes a directory. -/
def makeDirectory (path : Path) : Except IoError FileSystem := do
  let location ← fs.locate path
  match fs.entryAt? location with
  | some _ => .error .alreadyExists
  | none => .ok (fs.put location .directory)

/-- The path of some components. -/
def componentsPath (components : List PathComponent) : Path :=
  components.foldl (fun path component => path.child component.text) { text := "" }

/-- Makes a directory and the directories on the way to it, given the components of its path in
reverse.  Directories made before a failure stay. -/
def makeDirectoriesFrom (fs : FileSystem) (path : Path) :
    List PathComponent → FileSystem × Except IoError Unit
  | [] => (fs, .ok ())
  | _ :: above =>
      match fs.makeDirectory path with
      | .ok made => (made, .ok ())
      | .error .notFound =>
          match makeDirectoriesFrom fs (componentsPath above.reverse) above with
          | (made, .error error) => (made, .error error)
          | (made, .ok ()) =>
              match made.makeDirectory path with
              | .ok made => (made, .ok ())
              | .error error =>
                  (made, if made.isDirectory path then .ok () else .error error)
      | .error error => (fs, if fs.isDirectory path then .ok () else .error error)

/-- **Makes a directory and the directories on the way to it**; one that is there already is
fine. -/
def makeDirectories (path : Path) : FileSystem × Except IoError Unit :=
  makeDirectoriesFrom fs path path.components.reverse

/-- Moves everything below a location. -/
def moveBelow (source target : Location) : FileSystem :=
  { fs with
    entries := fs.entries.map fun (name, entry) =>
      if source.isPrefixOf name then (target ++ name.drop source.length, entry) else (name, entry) }

/-- **Gives a file or directory another name.**  A file takes the place of a file, a directory that
of an empty directory. -/
def rename (source target : Path) : Except IoError FileSystem := do
  let (from', entry) ← fs.stat source
  let to' ← fs.locate target
  match entry, fs.entryAt? to' with
  | .file _ _, some .directory => .error .isADirectory
  | .file content writable, _ =>
      if demandsDirectory target then .error .notADirectory
      else .ok ((fs.erase from').put to' (.file content writable))
  | .directory, some (.file _ _) => .error .notADirectory
  | .directory, there =>
      if from' = to' then .ok fs
      else if from'.isPrefixOf to' then .error .invalidArgument
      else if there.isSome && !(fs.below to').isEmpty then .error .notEmpty
      else .ok ((fs.erase to').moveBelow from' to')

/-- Removes a file. -/
def removeFile (path : Path) : Except IoError FileSystem := do
  match ← fs.stat path with
  | (_, .directory) => .error .isADirectory
  | (location, .file _ _) => .ok (fs.erase location)

/-- Removes everything below a location, but not what is there. -/
def clear (location : Location) : FileSystem :=
  { fs with
    entries := fs.entries.filter fun entry =>
      !(location.isPrefixOf entry.1 && location.length < entry.1.length) }

/-- **Removes a directory with everything below it.**  A directory that is called by a dot or two is
emptied, but stays. -/
def removeDirectory (path : Path) : FileSystem × Except IoError Unit :=
  match fs.stat path with
  | .error error => (fs, .error error)
  | .ok (_, .file _ _) => (fs, .error .notADirectory)
  | .ok (location, .directory) =>
      match (pathNames path).getLast? with
      | some "." => (fs.clear location, .error .invalidArgument)
      | some ".." => (fs.clear location, .error .notEmpty)
      | _ => (fs.eraseBelow location, .ok ())

end AliasHoist.FileSystem
