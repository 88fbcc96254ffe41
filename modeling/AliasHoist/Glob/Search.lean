import AliasHoist.FileSystem.Access
import AliasHoist.Glob.Match

/-!
# Files that a glob pattern names

A pattern is matched against the file system component by component, so that a star stays within one
name.

## Main Definitions

* `Glob.isPattern`: whether a text has anything for which a pattern would be needed;
* `Glob.components`: the patterns between the slashes of a pattern;
* `Glob.search`: the paths that a list of component patterns leads to;
* `Glob.paths`: the paths that a pattern names.

## Design Notes

A component without wildcards is simply followed, so it may be a dot or two.  Any number of
components means all files and directories below a directory, at any depth; the pattern that comes
next is matched against their names.  The starting point `.` is not part of the paths found.
-/

namespace AliasHoist.Glob

/-- Whether a text has characters that mean something in patterns. -/
def isPattern (text : String) : Bool := text.toList.any fun c => c == '*' || c == '?' || c == '['

/-- The pieces of a text between slashes; what follows a slash at the end is no piece. -/
def pieces (text : String) : List String :=
  let pieces := (Path.splitSlashes text.toList).map String.ofList
  if pieces.getLast? == some "" then pieces.dropLast else pieces

/-- The patterns of some pieces. -/
def parsePieces : List String → Except PatternError (List Pattern)
  | [] => .ok []
  | piece :: rest => do
      let pattern ← Pattern.parse piece
      let patterns ← parsePieces rest
      return pattern :: patterns

/-- Several patterns in a row for any number of components, made one. -/
def collapse : List Pattern → List Pattern
  | [] => []
  | pattern :: rest =>
      match collapse rest with
      | next :: others =>
          if pattern.isRecursive && next.isRecursive then next :: others
          else pattern :: next :: others
      | [] => [pattern]

/-- **The patterns between the slashes of a pattern.**  The pattern as a whole has to be right, and
so has every component. -/
def components (text : String) : Except PatternError (List Pattern) := do
  let _ ← Pattern.parse text
  let relative := if text.toList.head? == some '/' then String.ofList (text.toList.drop 1) else text
  let patterns ← parsePieces (pieces relative)
  return collapse patterns

/-- Where relative patterns start. -/
def here : Path := { text := "." }

/-- Where a pattern starts. -/
def start (text : String) : Path := if text.toList.head? == some '/' then { text := "/" } else here

/-- A path continued by a name; the starting point is left out. -/
def continued (path : Path) (name : String) : Path :=
  if path.same here then { text := name } else path.child name

/-- Everything below a directory: path and name. -/
def belowPath (fs : FileSystem) (path : Path) : List (Path × String) :=
  match fs.stat path with
  | .ok (location, .directory) =>
      (fs.below location).filterMap fun (names, _) =>
        names.getLast?.map fun name => (names.foldl continued path, name)
  | _ => []

/-- What is directly in a directory: path and name. -/
def childrenOfPath (fs : FileSystem) (path : Path) : List (Path × String) :=
  match fs.stat path with
  | .ok (location, .directory) =>
      (fs.childrenOf location).map fun (name, _) => (continued path name, name)
  | _ => []

/-- The dots that a pattern matches.  Only one that starts with a dot matches them, and only in a
directory. -/
def dotsOfPath (fs : FileSystem) (path : Path) (pattern : Pattern) : List Path :=
  if fs.isDirectory path && pattern.tokens.head? == some (.char '.') then
    ([".", ".."].filter pattern.matches).map path.child
  else []

/-- **The paths that component patterns lead to from a path.** -/
def search (fs : FileSystem) : List Pattern → Path → List Path
  | [], path => [path]
  | pattern :: rest, path =>
      match pattern.literal? with
      | some name =>
          let next := continued path name
          let found :=
            if name == "." || name == ".." then fs.isDirectory path else fs.exists? next
          if found then search fs rest next else []
      | none =>
          if pattern.isRecursive then
            match rest with
            | [] => ((belowPath fs path).map (·.1)).filter fs.isDirectory
            | next :: others =>
                ((belowPath fs path).filter fun entry => next.matches entry.2).flatMap
                  fun entry => search fs others entry.1
          else
            (((childrenOfPath fs path).filter fun entry => pattern.matches entry.2).flatMap
              fun entry => search fs rest entry.1) ++
            (dotsOfPath fs path pattern).flatMap (search fs rest)

/-- **The paths that a pattern names.**  A pattern that ends with a slash names directories only. -/
def paths (fs : FileSystem) (text : String) : Except PatternError (List Path) := do
  let patterns ← components text
  let found := search fs patterns (start text)
  return if text.toList.getLast? == some '/' then found.filter fs.isDirectory else found

end AliasHoist.Glob
