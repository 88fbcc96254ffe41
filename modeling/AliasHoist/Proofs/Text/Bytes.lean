import AliasHoist.Text.Utf8

/-!
# The bytes of a text

Offsets count bytes, and texts are cut by walking over their characters.  This module says that the
two agree: where an offset falls between characters, cutting a text there cuts its UTF-8 form there.

## Main Definitions

* `Text.bytes`: the UTF-8 form of a text;
* `Text.between`: the part of a list between two offsets.

## Main Statements

* `exists_parts_of_isBoundary`: two offsets between characters cut a text in three;
* `bytes_dropBytes`, `bytes_sliceBytes`: the parts of a text are the parts of its bytes;
* `slice?_eq_some`: between characters, the substring at two offsets is that part.
-/

namespace AliasHoist.Text

/-- The UTF-8 form of a text.  Offsets of the parser point into it. -/
def bytes (cs : List Char) : List UInt8 := cs.flatMap String.utf8EncodeChar

@[simp] theorem bytes_nil : bytes [] = [] := rfl

@[simp] theorem bytes_cons (c : Char) (cs : List Char) :
    bytes (c :: cs) = String.utf8EncodeChar c ++ bytes cs := rfl

@[simp] theorem bytes_append (xs ys : List Char) : bytes (xs ++ ys) = bytes xs ++ bytes ys :=
  List.flatMap_append

@[simp] theorem length_bytes (cs : List Char) : (bytes cs).length = byteLength cs := by
  induction cs with
  | nil => rfl
  | cons c cs ih => simp [ih]

/-- The bytes that a string is stored as.  It ties the definition to what strings are
made of. -/
theorem toUTF8_eq_bytes (text : String) : text.toUTF8.data.toList = bytes text.toList := by
  rw [String.toUTF8_eq_toByteArray, ← String.utf8Encode_toList, List.utf8Encode,
    List.data_toByteArray]
  rfl

/-- The part of a list between two offsets.  It is used for bytes as well as for texts
that are given as lists. -/
def between {α : Type} (start stop : Nat) (xs : List α) : List α := (xs.take stop).drop start

/-! ## Cuts between characters -/

theorem eq_nil_of_byteLength {cs : List Char} (h : byteLength cs = 0) : cs = [] := by
  cases cs with
  | nil => rfl
  | cons c cs =>
      have := c.utf8Size_pos
      simp only [byteLength_cons] at h
      omega

/-- **An offset between characters cuts a text in two.**  This is the form in which the
property is used: the offset becomes a length. -/
theorem exists_halves_of_isBoundary {n : Nat} {cs : List Char} (h : isBoundary n cs = true) :
    ∃ before after, cs = before ++ after ∧ byteLength before = n := by
  obtain ⟨⟨before, after⟩, split⟩ := Option.isSome_iff_exists.mp h
  exact ⟨before, after, (append_of_splitAtByte split).symm, byteLength_of_splitAtByte split⟩

@[simp] theorem isBoundary_zero (cs : List Char) : isBoundary 0 cs = true := by simp [isBoundary]

/-- An offset between characters is within the text. -/
theorem le_byteLength_of_isBoundary {n : Nat} {cs : List Char} (h : isBoundary n cs = true) :
    n ≤ byteLength cs := by
  obtain ⟨before, after, rfl, rfl⟩ := exists_halves_of_isBoundary h
  rw [byteLength_append]
  omega

/-- An offset between characters that is past the first part of a text cuts the rest in two. -/
theorem exists_halves_of_isBoundary_append {n : Nat} {before after : List Char}
    (h : isBoundary n (before ++ after) = true) (le : byteLength before ≤ n) :
    ∃ middle rest, after = middle ++ rest ∧ byteLength (before ++ middle) = n := by
  obtain ⟨front, rest, same, rfl⟩ := exists_halves_of_isBoundary h
  rcases List.append_eq_append_iff.mp same with ⟨middle, rfl, rfl⟩ | ⟨middle, rfl, rfl⟩
  · exact ⟨middle, rest, rfl, rfl⟩
  · -- the cut is no earlier than the end of the first part, so it is there
    rw [byteLength_append] at le
    obtain rfl := eq_nil_of_byteLength (by omega : byteLength middle = 0)
    exact ⟨[], after, rfl, by simp⟩

/-- **Two offsets between characters cut a text in three.**  The one in the middle is
what is between the offsets, and it may be empty. -/
theorem exists_parts_of_isBoundary {start stop : Nat} {cs : List Char}
    (hstart : isBoundary start cs = true) (hstop : isBoundary stop cs = true)
    (le : start ≤ stop) :
    ∃ before middle after, cs = before ++ (middle ++ after) ∧ byteLength before = start ∧
      byteLength middle = stop - start := by
  obtain ⟨before, rest, rfl, rfl⟩ := exists_halves_of_isBoundary hstart
  obtain ⟨middle, after, rfl, length⟩ := exists_halves_of_isBoundary_append hstop le
  refine ⟨before, middle, after, rfl, rfl, ?_⟩
  rw [byteLength_append] at length
  omega

theorem splitAtByte_cons (c : Char) (cs : List Char) (n : Nat) :
    splitAtByte (c.utf8Size + n) (c :: cs) =
      (splitAtByte n cs).map fun (before, after) => (c :: before, after) := by
  obtain ⟨k, hk⟩ := Nat.exists_eq_add_one.mpr c.utf8Size_pos
  rw [hk, Nat.add_right_comm, splitAtByte, hk, if_pos (by omega)]
  congr 2
  omega

theorem splitAtByte_append (before after : List Char) :
    splitAtByte (byteLength before) (before ++ after) = some (before, after) := by
  induction before with
  | nil => exact splitAtByte_zero after
  | cons c cs ih => rw [byteLength_cons, List.cons_append, splitAtByte_cons, ih]; rfl

theorem takeBytes_cons (c : Char) (cs : List Char) (n : Nat) :
    takeBytes (c.utf8Size + n) (c :: cs) = c :: takeBytes n cs := by
  obtain ⟨k, hk⟩ := Nat.exists_eq_add_one.mpr c.utf8Size_pos
  rw [hk, Nat.add_right_comm, takeBytes, hk]
  congr 2
  omega

theorem dropBytes_cons (c : Char) (cs : List Char) (n : Nat) :
    dropBytes (c.utf8Size + n) (c :: cs) = dropBytes n cs := by
  obtain ⟨k, hk⟩ := Nat.exists_eq_add_one.mpr c.utf8Size_pos
  rw [hk, Nat.add_right_comm, dropBytes, hk]
  congr 1
  omega

theorem takeBytes_append (before after : List Char) :
    takeBytes (byteLength before) (before ++ after) = before := by
  induction before with
  | nil => cases after <;> rfl
  | cons c cs ih => rw [byteLength_cons, List.cons_append, takeBytes_cons, ih]

theorem dropBytes_append (before after : List Char) :
    dropBytes (byteLength before) (before ++ after) = after := by
  induction before with
  | nil => cases after <;> rfl
  | cons c cs ih => rw [byteLength_cons, List.cons_append, dropBytes_cons, ih]

@[simp] theorem isBoundary_append (before after : List Char) :
    isBoundary (byteLength before) (before ++ after) = true := by
  rw [isBoundary, splitAtByte_append]
  rfl

/-- The middle of a text stands between the end of what is before it and its own.
Statements about offsets become statements about lists that are put together. -/
theorem sliceBytes_append (before middle after : List Char) :
    sliceBytes (byteLength before) (byteLength (before ++ middle)) (before ++ (middle ++ after)) =
      middle := by
  rw [sliceBytes, dropBytes_append, byteLength_append, Nat.add_sub_cancel_left, takeBytes_append]

/-- **The rest of a text is the rest of its bytes.**  Elsewhere a character would be
cut. -/
theorem bytes_dropBytes {n : Nat} {cs : List Char} (h : isBoundary n cs = true) :
    bytes (dropBytes n cs) = (bytes cs).drop n := by
  obtain ⟨before, after, rfl, rfl⟩ := exists_halves_of_isBoundary h
  rw [dropBytes_append, bytes_append, ← length_bytes, List.drop_left]

/-- **A part of a text is that part of its bytes.**  So what is said of bytes about a
rewritten file holds of its text. -/
theorem bytes_sliceBytes {start stop : Nat} {cs : List Char} (hstart : isBoundary start cs = true)
    (hstop : isBoundary stop cs = true) (le : start ≤ stop) :
    bytes (sliceBytes start stop cs) = between start stop (bytes cs) := by
  obtain ⟨before, middle, after, rfl, rfl, length⟩ := exists_parts_of_isBoundary hstart hstop le
  rw [sliceBytes, dropBytes_append, ← length, takeBytes_append, between,
    bytes_append, bytes_append, ← List.append_assoc, ← length_bytes before, List.take_left'
      (by rw [List.length_append, length_bytes, length_bytes]; omega), List.drop_left]

/-- The substring between two offsets is the part of the text between them.  There is no
other failure: within a text, two offsets in order between characters are enough. -/
theorem slice?_eq_some {start stop : Nat} {source : String}
    (hstart : isBoundary start source.toList = true) (hstop : isBoundary stop source.toList = true)
    (le : start ≤ stop) :
    slice? source start stop = some (String.ofList (sliceBytes start stop source.toList)) := by
  obtain ⟨before, middle, after, parts, rfl, length⟩ := exists_parts_of_isBoundary hstart hstop le
  rw [slice?, if_pos le, parts, splitAtByte_append, sliceBytes, dropBytes_append, ← length,
    takeBytes_append]
  simp only [Option.bind_eq_bind, Option.bind_some, splitAtByte_append]

/-- The middle of a text is the substring from the end of what is before it to its own. -/
theorem slice?_append (before middle after : List Char) :
    slice? (String.ofList (before ++ (middle ++ after))) (byteLength before)
      (byteLength (before ++ middle)) = some (String.ofList middle) := by
  have stop : isBoundary (byteLength (before ++ middle)) (before ++ (middle ++ after)) = true := by
    rw [← List.append_assoc]
    exact isBoundary_append _ _
  rw [slice?_eq_some, String.toList_ofList, sliceBytes_append]
  · rw [String.toList_ofList]
    exact isBoundary_append _ _
  · rwa [String.toList_ofList]
  · rw [byteLength_append]
    exact Nat.le_add_right _ _

end AliasHoist.Text
