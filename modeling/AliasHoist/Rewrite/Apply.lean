import AliasHoist.Rewrite.Edit
import AliasHoist.Text.Utf8

/-!
# Applying edits

A list of edits is put in order and applied in one sweep over the text.  Everything between the
edits is kept byte for byte.

## Main Definitions

* `EditError`: why a list of edits cannot be applied;
* `inOrder`: the edits in the order of the sweep; edits with equal places keep their order;
* `sweep`: the sweep itself, from a cursor onward;
* `applyEdits`: the text after the edits.
-/

namespace AliasHoist

/-- Why a list of edits cannot be applied. -/
inductive EditError where
  /-- An edit begins before the end of the one in front of it. -/
  | overlap (offset : Nat)
  /-- An edit is no range of the text. -/
  | outOfBounds (start stop length : Nat)
  deriving DecidableEq, Repr

namespace EditError

/-- What the user is told. -/
def message : EditError → String
  | overlap offset => "edits overlap at byte " ++ toString offset
  | outOfBounds start stop length =>
      "edit range " ++ toString start ++ ".." ++ toString stop ++ " is outside a " ++
        toString length ++ "-byte source"

end EditError

/-- The edits in the order of the sweep. -/
def inOrder (edits : List Edit) : List Edit := edits.mergeSort Edit.comesBefore

/-- Whether an edit covers a range of the text: ends in the right order, within the text, and
between characters. -/
def isRangeOf (source : List Char) (edit : Edit) : Bool :=
  edit.start ≤ edit.stop && Text.isBoundary edit.start source && Text.isBoundary edit.stop source

/-- **One sweep over the text.**  The cursor is where the last edit ended. -/
def sweep (source : List Char) (cursor : Nat) : List Edit → Except EditError (List Char)
  | [] => .ok (Text.dropBytes cursor source)
  | edit :: rest =>
      if !isRangeOf source edit then
        .error (.outOfBounds edit.start edit.stop (Text.byteLength source))
      else if edit.start < cursor then .error (.overlap edit.start)
      else
        (sweep source edit.stop rest).map fun tail =>
          Text.sliceBytes cursor edit.start source ++ edit.text.toList ++ tail

/-- **The text after a list of edits**, given in any order. -/
def applyEdits (source : String) (edits : List Edit) : Except EditError String :=
  (sweep source.toList 0 (inOrder edits)).map String.ofList

end AliasHoist
