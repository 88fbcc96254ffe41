import AliasHoist.Json.Token

/-!
# Reading JSON

The tokens of a text are folded into a stack of open containers.

## Main Definitions

* `Frame`: an open container with what has been read of it;
* `State`: what may come next, with the containers around it;
* `step`: one token;
* `Document.ofText`: the value of a text.

## Design Notes

When a token does not fit, the open containers are closed around the mark `malformed`, so that the
value shows everything that was read before.  What is wrong after the end of the first value is kept
apart from it.
-/

namespace AliasHoist.Json

/-- An open container; what has been read of it is listed last first. -/
inductive Frame where
  | array (items : List Value)
  | member (members : List (String × Value)) (key : String)
  deriving Repr

namespace Frame

/-- A container closed after one more value. -/
def close (value : Value) : Frame → Value
  | array items => .array (value :: items).reverse
  | member members key => .object ((key, value) :: members).reverse

end Frame

/-- All open containers closed around a value, the innermost first. -/
def closeAll (stack : List Frame) (value : Value) : Value := stack.foldl Frame.close value

/-- The object of some members, last first, after which the text stops being JSON. -/
def brokenObject (members : List (String × Value)) : Value :=
  .object (("", .malformed) :: members).reverse

/-- What may come next, with the containers around it, innermost first. -/
inductive State where
  /-- A value has to follow. -/
  | value (stack : List Frame)
  /-- An array has just been opened. -/
  | firstItem (stack : List Frame)
  /-- An object has just been opened. -/
  | firstKey (stack : List Frame)
  /-- A key has to follow. -/
  | nextKey (members : List (String × Value)) (stack : List Frame)
  /-- The colon after a key has to follow. -/
  | colon (key : String) (members : List (String × Value)) (stack : List Frame)
  /-- A value has been read. -/
  | complete (value : Value) (stack : List Frame)
  /-- Something follows the value of the text. -/
  | trailing (value : Value)
  /-- The text has stopped being JSON. -/
  | failed (value : Value)
  deriving Repr

namespace State

/-- The start of a value, or the mark of something else. -/
def startValue (stack : List Frame) : Token → State
  | .scalar v => complete v stack
  | .openArray => firstItem stack
  | .openObject => firstKey stack
  | _ => failed (closeAll stack .malformed)

/-- A key, or the mark of something else. -/
def startKey (members : List (String × Value)) (stack : List Frame) : Token → State
  | .scalar (.text key) => colon key members stack
  | _ => failed (closeAll stack (brokenObject members))

/-- **One token.** -/
def step : State → Token → State
  | value stack, token => startValue stack token
  | firstItem stack, .closeArray => complete (.array []) stack
  | firstItem stack, token => startValue (.array [] :: stack) token
  | firstKey stack, .closeObject => complete (.object []) stack
  | firstKey stack, token => startKey [] stack token
  | nextKey members stack, token => startKey members stack token
  | colon key members stack, .colon => value (.member members key :: stack)
  | colon key members stack, _ => failed (closeAll (.member members key :: stack) .malformed)
  | complete v (.array items :: stack), .comma => value (.array (v :: items) :: stack)
  | complete v (.array items :: stack), .closeArray => complete (Frame.close v (.array items)) stack
  | complete v (.array items :: stack), _ =>
      failed (closeAll (.array (v :: items) :: stack) .malformed)
  | complete v (.member members key :: stack), .comma => nextKey ((key, v) :: members) stack
  | complete v (.member members key :: stack), .closeObject =>
      complete (Frame.close v (.member members key)) stack
  | complete v (.member members key :: stack), _ =>
      failed (closeAll stack (brokenObject ((key, v) :: members)))
  | complete v [], _ => trailing v
  | trailing v, _ => trailing v
  | failed v, _ => failed v

end State

/-- What a text holds: a value, and whether something follows it. -/
structure Document where
  value : Value
  trailing : Bool
  deriving Repr

namespace Document

/-- The document when the text ends in a state. -/
def ofState : State → Document
  | .complete value [] => { value, trailing := false }
  | .trailing value => { value, trailing := true }
  | .failed value => { value, trailing := false }
  | state =>
      match state.step .bad with
      | .failed value => { value, trailing := false }
      | _ => { value := .malformed, trailing := false }

/-- **What a text holds.** -/
def ofText (text : String) : Document :=
  ofState ((tokens text.toList).foldl State.step (.value []))

end Document

end AliasHoist.Json
