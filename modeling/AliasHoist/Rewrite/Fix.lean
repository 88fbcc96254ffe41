import AliasHoist.Rewrite.Edit

/-!
# Fixes

A fix hoists one type literal: it inserts the alias declaration in front of a statement and puts the
alias name in the literal's place.  The two edits are applied together or not at all.

## Main Definitions

* `Fix`: the two edits with the alias name;
* `FixSelection`: fixes that can be applied together, and fixes that have to wait;
* `selectFixes`: accepts the fixes in their order, each unless it collides with one accepted before.
-/

namespace AliasHoist

/-- The two edits that hoist one literal. -/
structure Fix where
  aliasName : String
  declaration : Edit
  reference : Edit
  deriving DecidableEq, Repr

namespace Fix

/-- The edits of a fix. -/
def edits (fix : Fix) : List Edit := [fix.declaration, fix.reference]

/-- Whether an edit of one fix overlaps an edit of another. -/
def collides (fix other : Fix) : Bool :=
  fix.edits.any fun edit => other.edits.any fun taken => edit.overlaps taken

end Fix

/-- Fixes split into those of one pass and those that wait for the next. -/
structure FixSelection where
  accepted : List Fix
  deferred : List Fix
  deriving DecidableEq, Repr

namespace FixSelection

/-- The edits of all accepted fixes, in the order of acceptance. -/
def edits (selection : FixSelection) : List Edit := selection.accepted.flatMap Fix.edits

end FixSelection

/-- Selection after some fixes have been accepted. -/
def selectAfter (accepted : List Fix) : List Fix → FixSelection
  | [] => { accepted := [], deferred := [] }
  | fix :: rest =>
      if accepted.any fix.collides then
        let selection := selectAfter accepted rest
        { selection with deferred := fix :: selection.deferred }
      else
        let selection := selectAfter (accepted ++ [fix]) rest
        { selection with accepted := fix :: selection.accepted }

/-- **The fixes that one pass applies.**  Each is accepted unless it collides with one accepted
before it. -/
def selectFixes (fixes : List Fix) : FixSelection := selectAfter [] fixes

end AliasHoist
