import AliasHoist.Command.Error
import AliasHoist.Glob.Search
import AliasHoist.Text.Search
import AliasHoist.World

/-!
# Collecting files

The files to work on are named by files, directories and glob patterns.

## Main Definitions

* `reach`: the files that one path argument names;
* `isExcluded`: whether a pattern leaves a file out;
* `inOrder`: files in the order of their paths, each once;
* `collect`: all files to work on.
-/

namespace AliasHoist.Command

/-- All files below a directory. -/
def filesBelow (fs : FileSystem) (path : Path) : List Path :=
  match fs.stat path with
  | .ok (location, .directory) =>
      (fs.below location).filterMap fun (names, entry) =>
        match entry with
        | .file _ _ => some (names.foldl Path.child path)
        | .directory => none
  | _ => []

/-- **The files that a path argument names**, `none` when it names nothing. -/
def reach (fs : FileSystem) (path : Path) : Except Glob.PatternError (Option (List Path)) :=
  if Glob.isPattern path.text then do
    return some ((← Glob.paths fs path.text).filter fs.isFile)
  else if fs.isFile path then .ok (some [path])
  else if fs.isDirectory path then .ok (some (filesBelow fs path))
  else .ok none

/-- Whether a file is left out because of a pattern.  A glob pattern has to match the whole path,
any other one a part of it; one that is wrong leaves nothing out. -/
def isExcluded (pattern : String) (path : Path) : Bool :=
  if Glob.isPattern pattern then
    match Glob.Pattern.parse pattern with
    | .ok compiled => compiled.matches path.text
    | .error _ => false
  else Text.isPartOf pattern path.text

/-- Paths without those that are the same as the one before. -/
def dropRepeated : List Path → List Path
  | [] => []
  | path :: rest =>
      match dropRepeated rest with
      | [] => [path]
      | next :: others => if path.same next then path :: others else path :: next :: others

/-- **Paths in their order, each once.** -/
def inOrder (paths : List Path) : List Path := dropRepeated (paths.mergeSort Path.precedes)

/-- What is left to do once a path argument has been followed. -/
def settleReach (config : Config) (path : Path) :
    Option (List Path) → Task CommandError (List Path)
  | some files => pure (files.filter config.acceptsExtension)
  | none => do
      Task.log .warn "path does not exist" [("path", path.text)]
      return []

/-- The files that some path arguments name. -/
def reachAll (config : Config) : List Path → Task CommandError (List Path)
  | [] => pure []
  | path :: rest => do
      let files ← settleReach config path (← Task.ask (reach · path) .pattern)
      let others ← reachAll config rest
      return files ++ others

/-- **The files to work on.** -/
def collect (config : Config) (exclude : List String) (paths : List Path) :
    Task CommandError (List Path) := do
  let reached ← reachAll config paths
  let patterns := config.exclude ++ exclude
  let files := inOrder (reached.filter fun path => !patterns.any (isExcluded · path))
  Task.log .debug "collected source files" [("files", toString files.length)]
  return files

end AliasHoist.Command
