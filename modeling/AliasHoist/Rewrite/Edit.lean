/-!
# Edits

An edit is a change to a text, addressed by byte offsets of the text before any edit.

## Main Definitions

* `Edit`: an insertion at an offset or a replacement of a range;
* `Edit.overlaps`: whether two edits touch the same bytes.
-/

namespace AliasHoist

/-- A change to a text. -/
inductive Edit where
  | insert (offset : Nat) (text : String)
  | replace (start stop : Nat) (text : String)
  deriving DecidableEq, Repr

namespace Edit

/-- Where the edit begins. -/
def start : Edit → Nat
  | insert offset _ => offset
  | replace start _ _ => start

/-- Where the edit ends: an insertion ends where it begins. -/
def stop : Edit → Nat
  | insert offset _ => offset
  | replace _ stop _ => stop

/-- The new text. -/
def text : Edit → String
  | insert _ text => text
  | replace _ _ text => text

/-- Insertions come before a replacement that begins at the same offset. -/
def rank : Edit → Nat
  | insert _ _ => 0
  | replace _ _ _ => 1

/-- **Whether two edits touch the same bytes.**  Two insertions never do, and an insertion only
conflicts with a replacement when it lands strictly inside it. -/
def overlaps : Edit → Edit → Bool
  | insert _ _, insert _ _ => false
  | insert offset _, replace start stop _ => start < offset && offset < stop
  | replace start stop _, insert offset _ => start < offset && offset < stop
  | replace start stop _, replace start' stop' _ => start < stop' && start' < stop

theorem overlaps_comm (a b : Edit) : a.overlaps b = b.overlaps a := by
  cases a <;> cases b <;> simp [overlaps, Bool.and_comm]

/-- The order in which edits are applied: by offset, insertions first. -/
def comesBefore (a b : Edit) : Bool :=
  a.start < b.start || (a.start == b.start && a.rank ≤ b.rank)

end Edit

end AliasHoist
