import AliasHoist.Decode.Error
import AliasHoist.Toml.Document

/-!
# Settings in TOML

Reading values of known types from TOML values.

## Main Definitions

* `Decoder`: reads a value of some type;
* `text`, `bool`, `natural`, `texts`: decoders of plain types;
* `Section.read`: the settings of a section.

## Design Notes

Settings are read in the order in which they are written, and the first thing wrong is reported.
A section may also be given as an array of its settings in order; settings that such an array is too
short for stay as they are, and items that it has too many are passed over.
-/

namespace AliasHoist.Toml

/-- Reads a value of some type. -/
abbrev Decoder (α : Type) := Value → Except DecodeError α

/-- What a value is when it stands in the place of something else.  A date counts as a map. -/
def found : Value → Found
  | .text s => .text s
  | .integer i => .integer i
  | .float x => .float (floatText .positional x)
  | .bool b => .bool b
  | .array _ | .tables _ => .sequence
  | .dateTime | .inlineTable _ | .table _ _ => .map

/-- A text. -/
def text : Decoder String
  | .text s => .ok s
  | value => .error (.invalidType (found value) "a string")

/-- A truth value. -/
def bool : Decoder Bool
  | .bool b => .ok b
  | value => .error (.invalidType (found value) "a boolean")

/-- A natural number. -/
def natural : Decoder Nat
  | .integer i => if i < 0 then .error (.invalidValue (.integer i) "usize") else .ok i.toNat
  | value => .error (.invalidType (found value) "usize")

/-- The items of a list of values, tables among them. -/
def items? : Value → Option (List Value)
  | .array items => some items
  | .tables elements => some (elements.map .inlineTable)
  | _ => none

/-- A list of texts. -/
def texts : Decoder (List String) := fun value =>
  match items? value with
  | some items => items.mapM text
  | none => .error (.invalidType (found value) "a sequence")

/-- The name by which a date shows itself where a table is expected. -/
def dateKey : String := "$__toml_private_datetime"

/-- The entries of a table; a date looks like a table with one entry. -/
def entries? : Value → Option Entries
  | .inlineTable entries | .table _ entries => some entries
  | .dateTime => some [(dateKey, .dateTime)]
  | _ => none

/-! ## Sections -/

/-- A setting with the way it changes the settings `α`. -/
structure Setting (α : Type) where
  name : String
  read : Value → α → Except DecodeError α

/-- A section: a name for its type, and its settings. -/
structure Section (α : Type) where
  name : String
  settings : List (Setting α)

namespace Section

variable {α : Type}

/-- The settings of a section after some entries. -/
def readEntries (type : Section α) (current : α) : Entries → Except DecodeError α
  | [] => .ok current
  | (key, value) :: rest =>
      match type.settings.find? (·.name == key) with
      | none => .error (.unknownField key (type.settings.map (·.name)))
      | some setting => do
          let current ← setting.read value current
          readEntries type current rest

/-- The settings of a section after the items of an array. -/
def readItems (current : α) : List (Setting α) → List Value → Except DecodeError α
  | setting :: settings, value :: rest => do
      let current ← setting.read value current
      readItems current settings rest
  | _, _ => .ok current

/-- **The settings of a section.** -/
def read (type : Section α) (value : Value) (current : α) : Except DecodeError α :=
  match entries? value, items? value with
  | some entries, _ => type.readEntries current entries
  | none, some items => readItems current type.settings items
  | none, none => .error (.invalidType (found value) ("struct " ++ type.name))

end Section

end AliasHoist.Toml
