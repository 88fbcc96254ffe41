import AliasHoist.Decode.Error
import AliasHoist.Json.Read

/-!
# Records in JSON

Reading records of known fields from JSON values.  The first thing wrong in the order of the text is
reported; a field that is missing is noticed when everything else has been read.

## Main Definitions

* `Decoder`: reads a value of some type;
* `text`, `bool`, `natural`, `listOf`, `mapOf`, `anyValue`: decoders of plain types;
* `record`: a decoder of records;
* `decodeText`: what a text holds.

## Design Notes

A record may be given as an object or as an array of its fields in order.  Members that a record
does not know are passed over, as long as they are JSON; a field that is given twice is an error.
-/

namespace AliasHoist.Json

/-- Reads a value of some type. -/
abbrev Decoder (α : Type) := Value → Except DecodeError α

/-- Where data come from: a text that is read from its beginning, or a value at hand. -/
inductive DataSource where
  | text
  | value
  deriving DecidableEq, Repr

/-- A number divided by a power of ten, in steps of at most 308 powers. -/
def divideTenfold (x : Float) (n : Nat) : Float :=
  if n ≤ 308 then x / Float.ofScientific 1 false n
  else if x == 0 then x
  else divideTenfold (x / 1e308) (n - 308)
termination_by n

/-- The floating-point number of a decimal, `none` when it is too large. -/
def decimalFloat? (negative : Bool) (digits : Nat) (exponent : Int) : Option Float :=
  let x := Float.ofNat digits
  let size? : Option Float :=
    if 0 ≤ exponent then
      if exponent ≤ 308 then
        let y := x * Float.ofScientific 1 false exponent.toNat
        if y.isInf then none else some y
      else if x == 0 then some x
      else none
    else some (divideTenfold x exponent.natAbs)
  size?.map fun y => if negative then -y else y

/-- **The complaint about a value that should be something else.** -/
def unexpected (value : Value) (expected : String) : DecodeError :=
  match value with
  | .null => .invalidType .null expected
  | .bool b => .invalidType (.bool b) expected
  | .number (.integer i) => .invalidType (.integer i) expected
  | .number (.decimal negative digits exponent) =>
      match decimalFloat? negative digits exponent with
      | some x => .invalidType (.float (floatText .scientific x)) expected
      | none => .malformed
  | .text s => .invalidType (.text s) expected
  | .array _ => .invalidType .sequence expected
  | .object _ => .invalidType .map expected
  | .brokenText | .malformed => .malformed

/-- A text, under the name that it is expected by. -/
def textAs (expected : String) : Decoder String
  | .text s => .ok s
  | value => .error (unexpected value expected)

/-- A text. -/
def text : Decoder String := textAs "a string"

/-- A truth value. -/
def bool : Decoder Bool
  | .bool b => .ok b
  | value => .error (unexpected value "a boolean")

/-- A natural number. -/
def natural : Decoder Nat
  | .number (.integer i) =>
      if i < 0 then .error (.invalidValue (.integer i) "usize") else .ok i.toNat
  | value => .error (unexpected value "usize")

/-- All items of a list, in order. -/
def decodeItems {α : Type} (item : Decoder α) : List Value → Except DecodeError (List α)
  | [] => .ok []
  | value :: rest => do
      let first ← item value
      let others ← decodeItems item rest
      return first :: others

/-- A list. -/
def listOf {α : Type} (item : Decoder α) : Decoder (List α)
  | .array items => decodeItems item items
  | value => .error (unexpected value "a sequence")

/-- Puts an entry into a map; an entry with the same key gives way. -/
def putEntry {α : Type} (key : String) (value : α) (entries : List (String × α)) :
    List (String × α) :=
  if entries.any (·.1 == key) then
    entries.map fun entry => if entry.1 == key then (key, value) else entry
  else entries ++ [(key, value)]

/-- All members of an object, in order; of members with one key the last one counts. -/
def decodeMembers {α : Type} (item : Decoder α) (entries : List (String × α)) :
    List (String × Value) → Except DecodeError (List (String × α))
  | [] => .ok entries
  | (key, value) :: rest => do
      let first ← item value
      decodeMembers item (putEntry key first entries) rest

/-- A map from texts. -/
def mapOf {α : Type} (item : Decoder α) : Decoder (List (String × α))
  | .object members => decodeMembers item [] members
  | value => .error (unexpected value "a map")

mutual

/-- Whether a value holds no text with half a character and no number beyond all bounds. -/
def isSound : Value → Bool
  | .number (.decimal negative digits exponent) =>
      (decimalFloat? negative digits exponent).isSome
  | .array items => areSound items
  | .object members => areSoundMembers members
  | .brokenText | .malformed => false
  | _ => true

/-- The same for all values of a list. -/
def areSound : List Value → Bool
  | [] => true
  | item :: rest => isSound item && areSound rest

/-- The same for all members of an object. -/
def areSoundMembers : List (String × Value) → Bool
  | [] => true
  | (_, item) :: rest => isSound item && areSoundMembers rest

end

/-- Any value. -/
def anyValue : Decoder Value := fun value => if isSound value then .ok value else .error .malformed

/-! ## Records -/

/-- A record type: its name, and its fields with a check for each. -/
structure RecordType where
  name : String
  fields : List (String × (Value → Except DecodeError Unit))

/-- Checks the members of an object in order, given the fields that have been read. -/
def checkMembers (type : RecordType) (read : List String) :
    List (String × Value) → Except DecodeError Unit
  | [] => .ok ()
  | (key, value) :: rest =>
      match type.fields.lookup key with
      | none => if value.isWellFormed then checkMembers type read rest else .error .malformed
      | some check =>
          if read.contains key then .error (.duplicateField key)
          else do
            check value
            checkMembers type (key :: read) rest

/-- How a record type calls its fields when they are counted. -/
def RecordType.counted (type : RecordType) : String :=
  "struct " ++ type.name ++ " with " ++ toString type.fields.length ++
    (if type.fields.length = 1 then " element" else " elements")

/-- Checks the items of an array against the fields of a record, in order. -/
def checkItems (source : DataSource) (type : RecordType) (total read : Nat) :
    List (String × (Value → Except DecodeError Unit)) → List Value → Except DecodeError Unit
  | [], [] => .ok ()
  | [], _ :: _ =>
      match source with
      | .text => .error .malformed
      | .value => .error (.invalidLength total "fewer elements in array")
  | _ :: _, [] => .error (.invalidLength read type.counted)
  | (_, check) :: fields, value :: rest => do
      check value
      checkItems source type total (read + 1) fields rest

/-- **The members of a record**, each of them checked. -/
def recordMembers (source : DataSource) (type : RecordType) :
    Value → Except DecodeError (List (String × Value))
  | .object members => do
      checkMembers type [] members
      return members
  | .array items => do
      checkItems source type items.length 0 type.fields items
      return (type.fields.map (·.1)).zip items
  | value => .error (unexpected value ("struct " ++ type.name))

/-- The value of a field, which has to be there. -/
def requiredField {α : Type} (members : List (String × Value)) (name : String)
    (decode : Decoder α) : Except DecodeError α :=
  match members.lookup name with
  | some value => decode value
  | none => .error (.missingField name)

/-- A decoder as a check. -/
def checked {α : Type} (decode : Decoder α) (value : Value) : Except DecodeError Unit :=
  (decode value).map fun _ => ()

/-- **What a text holds.**  Anything after the value is an error, but only when the value has
none. -/
def decodeText {α : Type} (decode : Decoder α) (source : String) : Except DecodeError α := do
  let document := Document.ofText source
  let result ← decode document.value
  if document.trailing then .error .malformed else .ok result

end AliasHoist.Json
