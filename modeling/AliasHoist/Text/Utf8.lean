/-!
# Byte offsets into text

Source ranges are byte offsets into the UTF-8 form of a text, while the library reads texts
character by character.  This module relates the two views.

## Main Definitions

* `byteLength`: the UTF-8 length of a list of characters;
* `splitAtByte`: the split of a text at a byte offset, defined only on character boundaries;
* `takeBytes`, `dropBytes`: the two halves of that split as total functions;
* `slice?`: the substring between two byte offsets;
* `lineColumn`: the line and byte column of an offset, both counted from zero.

## Design Notes

Everything recurses on the list of characters, so a text is never indexed and no offset can be
out of range: an offset that names no boundary is `none`.  Only the line feed ends a line, and
columns count bytes; a carriage return is an ordinary character of its line.
-/

namespace AliasHoist.Text

/-- The length of a text in UTF-8 bytes. -/
def byteLength : List Char → Nat
  | [] => 0
  | c :: cs => c.utf8Size + byteLength cs

@[simp] theorem byteLength_nil : byteLength [] = 0 := rfl

@[simp] theorem byteLength_cons (c : Char) (cs : List Char) :
    byteLength (c :: cs) = c.utf8Size + byteLength cs := rfl

@[simp] theorem byteLength_append (xs ys : List Char) :
    byteLength (xs ++ ys) = byteLength xs + byteLength ys := by
  induction xs with
  | nil => simp
  | cons c cs ih => simp [ih]; omega

/-- **The split of a text at a byte offset.**  `none` when the offset lies past the end of the
text or inside a character. -/
def splitAtByte : Nat → List Char → Option (List Char × List Char)
  | 0, cs => some ([], cs)
  | _ + 1, [] => none
  | n + 1, c :: cs =>
      if c.utf8Size ≤ n + 1 then
        (splitAtByte (n + 1 - c.utf8Size) cs).map fun (before, after) => (c :: before, after)
      else none

@[simp] theorem splitAtByte_zero (cs : List Char) : splitAtByte 0 cs = some ([], cs) := by
  cases cs <;> rfl

/-- Whether a byte offset falls between two characters, at the start or at the end. -/
def isBoundary (n : Nat) (cs : List Char) : Bool := (splitAtByte n cs).isSome

/-- The characters before a byte offset; a character cut by the offset counts as before it. -/
def takeBytes : Nat → List Char → List Char
  | 0, _ => []
  | _ + 1, [] => []
  | n + 1, c :: cs => c :: takeBytes (n + 1 - c.utf8Size) cs

/-- The characters from a byte offset on; a character cut by the offset is dropped. -/
def dropBytes : Nat → List Char → List Char
  | 0, cs => cs
  | _ + 1, [] => []
  | n + 1, c :: cs => dropBytes (n + 1 - c.utf8Size) cs

/-- The characters between two byte offsets. -/
def sliceBytes (start stop : Nat) (cs : List Char) : List Char :=
  takeBytes (stop - start) (dropBytes start cs)

/-- **A split loses nothing, and the part before it is exactly as long as the offset says.** -/
theorem parts_of_splitAtByte {n : Nat} {cs before after : List Char}
    (h : splitAtByte n cs = some (before, after)) :
    before ++ after = cs ∧ byteLength before = n := by
  induction cs generalizing n before after with
  | nil => cases n <;> simp_all [splitAtByte]
  | cons c cs ih =>
      cases n with
      | zero => simp_all
      | succ n =>
          simp only [splitAtByte] at h
          split at h
          · cases hs : splitAtByte (n + 1 - c.utf8Size) cs with
            | none => simp [hs] at h
            | some p =>
                obtain ⟨b, a⟩ := p
                simp only [hs, Option.map_some, Option.some.injEq, Prod.mk.injEq] at h
                obtain ⟨rfl, rfl⟩ := h
                obtain ⟨joined, length⟩ := ih hs
                refine ⟨by rw [List.cons_append, joined], ?_⟩
                simp only [byteLength_cons]
                omega
          · simp at h

theorem append_of_splitAtByte {n : Nat} {cs before after : List Char}
    (h : splitAtByte n cs = some (before, after)) : before ++ after = cs :=
  (parts_of_splitAtByte h).1

theorem byteLength_of_splitAtByte {n : Nat} {cs before after : List Char}
    (h : splitAtByte n cs = some (before, after)) : byteLength before = n :=
  (parts_of_splitAtByte h).2

/-- **The substring between two byte offsets.**  `none` when the offsets are in the wrong order,
past the end, or inside a character. -/
def slice? (source : String) (start stop : Nat) : Option String :=
  if start ≤ stop then do
    let (_, rest) ← splitAtByte start source.toList
    let (middle, _) ← splitAtByte (stop - start) rest
    some (String.ofList middle)
  else none

/-- Line and column of a byte offset, given the line and column of the text's first character. -/
def lineColumnFrom (line column : Nat) : Nat → List Char → Nat × Nat
  | 0, _ => (line, column)
  | _ + 1, [] => (line, column)
  | n + 1, c :: cs =>
      if c = '\n' then lineColumnFrom (line + 1) 0 n cs
      else lineColumnFrom line (column + min (n + 1) c.utf8Size) (n + 1 - c.utf8Size) cs

/-- The line and byte column of a byte offset, both counted from zero. -/
def lineColumn (offset : Nat) (cs : List Char) : Nat × Nat := lineColumnFrom 0 0 offset cs

end AliasHoist.Text
