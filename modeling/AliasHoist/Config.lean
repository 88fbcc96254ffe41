import AliasHoist.FileSystem.Access
import AliasHoist.Toml.Decode

/-!
# Configuration

The settings of a project, which a TOML file may give.  Every section and every setting may be left
out, and so may the file.

## Main Definitions

* `Config`: the settings, with their defaults;
* `Config.parse`: the settings that a text gives;
* `Config.load`, `Config.discover`: the settings of a file.
-/

namespace AliasHoist

/-- **The settings of a project.** -/
structure Config where
  /-- The extensions of the files to look at. -/
  extensions : List String := ["ts", "tsx", "mts", "cts"]
  /-- Glob patterns, or parts of paths, of the files to leave out. -/
  exclude : List String := ["node_modules", ".d.ts"]
  /-- Whether a name that is taken gets a number. -/
  disambiguateNames : Bool := true
  /-- The most passes over one file. -/
  maxPasses : Nat := 10
  deriving DecidableEq, Repr, Inhabited

/-- What is wrong with a configuration file. -/
inductive ConfigError where
  /-- A file that was asked for is not there. -/
  | missing (path : Path)
  | unreadable (path : Path) (reason : IoError)
  | invalid (path : Path) (reason : DecodeError)
  deriving DecidableEq, Repr

namespace ConfigError

/-- The reason for which a file could not be read. -/
def cause? : ConfigError → Option String
  | missing _ => some "config file not found"
  | unreadable _ reason => some reason.message
  | invalid _ _ => none

/-- What is wrong, in words. -/
def message : ConfigError → String
  | missing path => "failed to read config " ++ path.text ++ ": config file not found"
  | unreadable path reason => "failed to read config " ++ path.text ++ ": " ++ reason.message
  | invalid path reason => "invalid config " ++ path.text ++ ": " ++ reason.message

end ConfigError

namespace Config

/-- The settings about files. -/
def filesSection : Toml.Section Config where
  name := "FilesConfig"
  settings := [
    { name := "extensions"
      read := fun value config => do return { config with extensions := ← Toml.texts value } },
    { name := "exclude"
      read := fun value config => do return { config with exclude := ← Toml.texts value } }]

/-- The settings about names. -/
def ruleSection : Toml.Section Config where
  name := "RuleConfig"
  settings := [
    { name := "disambiguate_names"
      read := fun value config => do
        return { config with disambiguateNames := ← Toml.bool value } }]

/-- The settings about fixing. -/
def fixSection : Toml.Section Config where
  name := "FixConfig"
  settings := [
    { name := "max_passes"
      read := fun value config => do return { config with maxPasses := ← Toml.natural value } }]

/-- The whole configuration. -/
def document : Toml.Section Config where
  name := "HoistConfig"
  settings := [
    { name := "files", read := filesSection.read },
    { name := "rule", read := ruleSection.read },
    { name := "fix", read := fixSection.read }]

/-- **The settings that a text gives.** -/
def parse (text : String) : Except DecodeError Config :=
  match Toml.Document.parse? text with
  | none => .error .malformed
  | some entries => document.readEntries {} entries

/-- **The settings of a file**; those of a file that is not there are the defaults. -/
def load (fs : FileSystem) (path : Path) : Except ConfigError Config :=
  match fs.readText path with
  | .error .notFound => .ok {}
  | .error reason => .error (.unreadable path reason)
  | .ok text =>
      match parse text with
      | .ok config => .ok config
      | .error reason => .error (.invalid path reason)

/-- The file that settings are read from when none is named. -/
def defaultFile : Path := { text := "ts-hoist.toml" }

/-- **The settings of a project.**  A file that is named has to be there. -/
def discover (fs : FileSystem) : Option Path → Except ConfigError Config
  | none => load fs defaultFile
  | some path => if fs.exists? path then load fs path else .error (.missing path)

/-- Whether the settings are the defaults. -/
def isDefault (config : Config) : Bool := config == {}

/-- Whether a file is one of those to look at. -/
def acceptsExtension (config : Config) (path : Path) : Bool :=
  path.extension?.any config.extensions.contains

end Config

end AliasHoist
