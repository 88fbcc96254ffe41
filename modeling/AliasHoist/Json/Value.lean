/-!
# JSON values

The values of the JSON data format.  Objects keep the order of their members, and may name a key
more than once.

## Main Definitions

* `Json.Number`: an integer of at most 64 bits, or a decimal fraction;
* `Json.Value`: a value, as far as it could be read.

## Design Notes

A text may stop being JSON in the middle of a value.  What was read before that point matters: a
reader of records complains about the first thing that is wrong in the text.  So a value may hold
the mark `malformed`, which stands for the rest of the text and is always the last thing in it.
-/

namespace AliasHoist.Json

/-- A number as it is written.  A decimal is `digits · 10 ^ exponent`, with a sign that zero has
too. -/
inductive Number where
  | integer (value : Int)
  | decimal (negative : Bool) (digits : Nat) (exponent : Int)
  deriving DecidableEq, Repr

/-- **A JSON value**, as far as it could be read. -/
inductive Value where
  | null
  | bool (value : Bool)
  | number (value : Number)
  | text (value : String)
  /-- A string in which an escape names half a character. -/
  | brokenText
  | array (items : List Value)
  | object (members : List (String × Value))
  /-- Here the text stopped being JSON. -/
  | malformed
  deriving Repr

namespace Value

/-- A natural number as a value. -/
def nat (n : Nat) : Value := number (.integer n)

mutual

/-- Whether the whole value could be read. -/
def isWellFormed : Value → Bool
  | array items => areWellFormed items
  | object members => areWellFormedMembers members
  | malformed => false
  | _ => true

/-- Whether all values of a list could be read. -/
def areWellFormed : List Value → Bool
  | [] => true
  | item :: rest => isWellFormed item && areWellFormed rest

/-- Whether all members of an object could be read. -/
def areWellFormedMembers : List (String × Value) → Bool
  | [] => true
  | (_, item) :: rest => isWellFormed item && areWellFormedMembers rest

end

end Value

end AliasHoist.Json
