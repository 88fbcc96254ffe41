import AliasHoist.Decimal.Text
import AliasHoist.Text.Quoted

/-!
# What can be wrong with data

Records are read from data formats whose values may have any shape.  This module names what can be
wrong, and says it in words.

## Main Definitions

* `Found`: what stands in the place of something else;
* `DecodeError`: the first thing that is wrong with some data;
* `DecodeError.message`: the same in words.
-/

namespace AliasHoist

/-- What stands in the place of something else. -/
inductive Found where
  | null
  | bool (value : Bool)
  | integer (value : Int)
  | float (shown : String)
  | text (value : String)
  | sequence
  | map
  deriving DecidableEq, Repr

namespace Found

/-- What was found, in words. -/
def message : Found → String
  | null => "null"
  | bool value => "boolean `" ++ (if value then "true" else "false") ++ "`"
  | integer value => "integer `" ++ toString value ++ "`"
  | float shown => "floating point `" ++ shown ++ "`"
  | text value => "string " ++ Text.quoted value
  | sequence => "sequence"
  | map => "map"

end Found

/-- **The first thing that is wrong with some data.** -/
inductive DecodeError where
  /-- The text is not of the data format. -/
  | malformed
  | invalidType (found : Found) (expected : String)
  | invalidValue (found : Found) (expected : String)
  | invalidLength (length : Nat) (expected : String)
  | missingField (name : String)
  | duplicateField (name : String)
  | unknownField (name : String) (expected : List String)
  | unknownVariant (name : String) (expected : List String)
  /-- A text in the place of a point in time is none. -/
  | badTimestamp
  deriving DecidableEq, Repr

namespace DecodeError

/-- A name between the marks that set it off in messages. -/
def marked (name : String) : String := "`" ++ name ++ "`"

/-- A choice of names: one, one or the other, or one of several. -/
def choice : List String → String
  | [] => "nothing"
  | [a] => marked a
  | [a, b] => marked a ++ " or " ++ marked b
  | names => "one of " ++ ", ".intercalate (names.map marked)

/-- What is wrong, in words. -/
def message : DecodeError → String
  | malformed => "malformed text"
  | invalidType found expected => "invalid type: " ++ found.message ++ ", expected " ++ expected
  | invalidValue found expected => "invalid value: " ++ found.message ++ ", expected " ++ expected
  | invalidLength length expected =>
      "invalid length " ++ toString length ++ ", expected " ++ expected
  | missingField name => "missing field " ++ marked name
  | duplicateField name => "duplicate field " ++ marked name
  | unknownField name expected =>
      "unknown field " ++ marked name ++ ", expected " ++ choice expected
  | unknownVariant name expected =>
      "unknown variant " ++ marked name ++ ", expected " ++ choice expected
  | badTimestamp => "not a point in time"

end DecodeError

end AliasHoist
