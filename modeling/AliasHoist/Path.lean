import AliasHoist.Tree.Kind

/-!
# Paths

A path is a text whose parts are separated by slashes.  Two paths are the same when they have the
same components, whatever their spelling.

## Main Definitions

* `PathComponent`: the root, `.`, `..` or a name;
* `Path.components`: the parts of a path that matter;
* `Path.fileName?`, `Path.extension?`, `Path.join`, `Path.parent?`;
* `Path.precedes`: the order of paths, component by component.

## Design Notes

Repeated slashes, slashes at the end and `.` are left out of the components, except for a `.` that
begins the path.  `..` stays, because what it means depends on the file system.
-/

namespace AliasHoist

/-- A part of a path. -/
inductive PathComponent where
  | root
  | current
  | parent
  | name (text : String)
  deriving DecidableEq, Repr

namespace PathComponent

/-- The place of a component's kind in the order of components. -/
def rank : PathComponent → Nat
  | root => 0
  | current => 1
  | parent => 2
  | name _ => 3

/-- The name in a component, empty for the others. -/
def nameText : PathComponent → String
  | name text => text
  | _ => ""

/-- The order of components: by kind, names among themselves by their characters. -/
def compare (a b : PathComponent) : Ordering :=
  (Ord.compare a.rank b.rank).then (Ord.compare a.nameText b.nameText)

/-- The component as it is written. -/
def text : PathComponent → String
  | root => "/"
  | current => "."
  | parent => ".."
  | name text => text

end PathComponent

/-- **A path as it was written.** -/
structure Path where
  text : String
  deriving DecidableEq, Repr

namespace Path

/-- The pieces of a text between slashes; there is always at least one. -/
def splitSlashes : List Char → List (List Char)
  | [] => [[]]
  | c :: rest =>
      if c = '/' then [] :: splitSlashes rest
      else
        match splitSlashes rest with
        | [] => [[c]]
        | piece :: pieces => (c :: piece) :: pieces

/-- What a piece between slashes means, anywhere but at the start of a path. -/
def componentOf? (piece : List Char) : Option PathComponent :=
  match piece with
  | [] => none
  | ['.'] => none
  | ['.', '.'] => some .parent
  | cs => some (.name (String.ofList cs))

/-- Whether a path starts at the root. -/
def isAbsolute (path : Path) : Bool := path.text.toList.head? == some '/'

/-- **The components of a path.** -/
def components (path : Path) : List PathComponent :=
  let pieces := splitSlashes path.text.toList
  let rest := pieces.filterMap componentOf?
  if path.isAbsolute then .root :: rest
  else if pieces.head? == some ['.'] then .current :: rest
  else rest

/-- Whether two paths have the same components. -/
def same (a b : Path) : Bool := a.components == b.components

/-- The order of lists of components. -/
def compareComponents : List PathComponent → List PathComponent → Ordering
  | [], [] => .eq
  | [], _ :: _ => .lt
  | _ :: _, [] => .gt
  | a :: as, b :: bs => (a.compare b).then (compareComponents as bs)

/-- Whether a path comes before another or is the same. -/
def precedes (a b : Path) : Bool := compareComponents a.components b.components != .gt

/-- The name that a path ends with; a path that ends with `..` or at the root has none. -/
def fileName? (path : Path) : Option String :=
  match path.components.getLast? with
  | some (.name text) => some text
  | _ => none

/-- The part of a file name after its last dot.  A dot that begins the name does not count. -/
def extensionOf? (name : String) : Option String :=
  let reversed := name.toList.reverse
  match reversed.dropWhile (· != '.') with
  | [] => none
  | [_] => none
  | _ :: _ => some (String.ofList (reversed.takeWhile (· != '.')).reverse)

/-- The extension of the file that a path names. -/
def extension? (path : Path) : Option String := path.fileName?.bind extensionOf?

/-- **A path continued by another.**  An absolute path stands for itself. -/
def join (base rest : Path) : Path :=
  if rest.isAbsolute then rest
  else if base.text.isEmpty || base.text.toList.getLast? == some '/' then
    { text := base.text ++ rest.text }
  else { text := base.text ++ "/" ++ rest.text }

/-- A path continued by a name. -/
def child (base : Path) (name : String) : Path := base.join { text := name }

/-- A path with a text put at its end. -/
def append (path : Path) (text : String) : Path := { text := path.text ++ text }

/-- The dialect of the file that a path names. -/
def dialect? (path : Path) : Option Dialect := path.extension?.bind Dialect.ofExtension?

end Path

end AliasHoist
