import AliasHoist.Proofs.Rewrite.Order
import AliasHoist.Proofs.Text.Bytes
import Mathlib

/-!
# What applied edits leave behind

The sweep copies the text up to an edit, writes the new text, and goes on where the edit ends.  This
module says what comes out of that, offset by offset and without a sweep: at every offset of the old
text stand the insertions made there, the replacements that begin there, and the old byte unless a
replacement covers it.

## Main Definitions

* `spliced`: the sweep on the bytes of a text;
* `writtenAt`: what stands in place of one offset;
* `written`: what stands in place of all of them.

## Main Statements

* `bytes_of_sweep`: the sweep over characters is the sweep over bytes;
* `spliced_eq_flatMap`: what the sweep writes, offset by offset;
* `edits_written_by_offset`: what applied edits leave behind, whatever the order of the list.

### What is load-bearing

Edits are written where they begin, so those that come after an edit must have nothing to write
inside it.  They follow it, which leaves only its end; and at the end of an empty replacement it is
the order by rank that keeps insertions out.
-/

namespace AliasHoist

/-! ## Edits at an offset -/

namespace Edit

/-- The new text as bytes. -/
def bytes (edit : Edit) : List UInt8 := Text.bytes edit.text.toList

/-- Whether an edit is an insertion at an offset.  The three tests below sort edits by
what they do at one offset, so that an offset can be looked at by itself. -/
def insertsAt (offset : Nat) : Edit → Bool
  | insert place _ => offset == place
  | replace _ _ _ => false

/-- Whether an edit is a replacement that begins at an offset. -/
def replacesFrom (offset : Nat) : Edit → Bool
  | insert _ _ => false
  | replace start _ _ => offset == start

/-- Whether the byte at an offset is replaced.  An insertion ends where it begins and
replaces nothing.  The end of an edit is not covered, so edits that touch share no byte.
-/
def covers (offset : Nat) (edit : Edit) : Bool := edit.start ≤ offset && offset < edit.stop

/-- An edit covers the offsets from its start to before its end. -/
theorem covers_iff {offset : Nat} {edit : Edit} :
    edit.covers offset = true ↔ edit.start ≤ offset ∧ offset < edit.stop := by
  simp [covers]

/-- Insertions at one offset are those alike to an empty one there. -/
theorem isAlike_insert (offset : Nat) : (insert offset "").isAlike = insertsAt offset := by
  funext edit
  cases edit with
  | insert place text => simp [isAlike, insertsAt, start, rank]
  | replace start stop text => simp [isAlike, insertsAt, rank]

/-- And replacements that begin there are those alike to an empty one. -/
theorem isAlike_replace (offset : Nat) :
    (replace offset offset "").isAlike = replacesFrom offset := by
  funext edit
  cases edit with
  | insert place text => simp [isAlike, replacesFrom, rank]
  | replace start stop text => simp [isAlike, replacesFrom, Edit.start, rank]

theorem insertsAt_iff {offset : Nat} {edit : Edit} :
    edit.insertsAt offset = true ↔ offset = edit.start ∧ edit.rank = 0 := by
  cases edit with
  | insert place text => simp [insertsAt, start, rank]
  | replace start stop text => simp [insertsAt, rank]

theorem replacesFrom_iff {offset : Nat} {edit : Edit} :
    edit.replacesFrom offset = true ↔ offset = edit.start ∧ edit.rank = 1 := by
  cases edit with
  | insert place text => simp [replacesFrom, rank]
  | replace start stop text => simp [replacesFrom, Edit.start, rank]

/-- An edit is an insertion, which ends where it begins, or a replacement.  It is the
case distinction on edits that proofs about offsets go by. -/
theorem rank_cases (edit : Edit) : edit.rank = 0 ∧ edit.stop = edit.start ∨ edit.rank = 1 := by
  cases edit with
  | insert place text => exact Or.inl ⟨rfl, rfl⟩
  | replace start stop text => exact Or.inr rfl

end Edit

/-- The texts of the insertions at an offset, in the order of the list. -/
def insertedAt (edits : List Edit) (offset : Nat) : List UInt8 :=
  (edits.filter (Edit.insertsAt offset)).flatMap Edit.bytes

/-- The texts of the replacements that begin at an offset, in the order of the list. -/
def replacedFrom (edits : List Edit) (offset : Nat) : List UInt8 :=
  (edits.filter (Edit.replacesFrom offset)).flatMap Edit.bytes

/-- The old byte at an offset, unless it is replaced.  At the end of the text there is
no byte, which the lookup says by itself. -/
def keptAt (source : List UInt8) (edits : List Edit) (offset : Nat) : List UInt8 :=
  if edits.any (Edit.covers offset) then [] else source[offset]?.toList

/-- **What stands in place of one offset**: the insertions there, the replacements that
begin there, and the old byte unless it is replaced.  It does not mention the order of
the list except among edits of one kind. -/
def writtenAt (source : List UInt8) (edits : List Edit) (offset : Nat) : List UInt8 :=
  insertedAt edits offset ++ replacedFrom edits offset ++ keptAt source edits offset

/-- **What stands in place of a text**, from its first offset to its end.  The range
goes one past the last byte, for insertions at the end. -/
def written (source : List UInt8) (edits : List Edit) : List UInt8 :=
  (List.range (source.length + 1)).flatMap (writtenAt source edits)

/-! ## The sweep on bytes -/

/-- The sweep on the bytes of a text.  The cursor only moves forward as long as the
edits follow one another, which is not asked for here. -/
def spliced (source : List UInt8) (cursor : Nat) : List Edit → List UInt8
  | [] => source.drop cursor
  | edit :: rest =>
      Text.between cursor edit.start source ++ edit.bytes ++ spliced source edit.stop rest

/-- **The sweep over characters is the sweep over bytes.**  Boundaries of characters are
boundaries of bytes, so slices agree. -/
theorem bytes_of_sweep {source : List Char} {cursor : Nat} {edits : List Edit} {text : List Char}
    (boundary : Text.isBoundary cursor source = true)
    (swept : sweep source cursor edits = .ok text) :
    Text.bytes text = spliced (Text.bytes source) cursor edits := by
  induction edits generalizing cursor text with
  | nil =>
      obtain rfl := Except.ok.inj swept
      exact Text.bytes_dropBytes boundary
  | cons edit rest ih =>
      obtain ⟨range, le, tail, sweptRest, rfl⟩ := sweep_cons_eq_ok_iff.mp swept
      obtain ⟨hstart, hstop⟩ := isBoundary_of_isRangeOf range
      rw [Text.bytes_append, Text.bytes_append, Text.bytes_sliceBytes boundary hstart le,
        ih hstop sweptRest, spliced, Edit.bytes]

/-! ## Offset by offset -/

/-- A run of a list, element by element.  The next three lemmas are about runs of
offsets in general; the sweep comes in below. -/
theorem flatMap_getElem?_range' {α : Type} (xs : List α) (start n : Nat) :
    (List.range' start n).flatMap (fun i => xs[i]?.toList) = (xs.drop start).take n := by
  induction n with
  | zero => rw [List.take_zero]; rfl
  | succ n ih =>
      rw [List.range'_1_concat, List.flatMap_append, ih, List.take_add_one, List.getElem?_drop]
      simp

/-- What is written once, at the first offset of a run.  It takes the text of an edit
out of the run of offsets that follows. -/
theorem flatMap_range'_first {α : Type} (start n : Nat) (front : List α) (f : Nat → List α) :
    (List.range' start (n + 1)).flatMap (fun i => (if i = start then front else []) ++ f i) =
      front ++ (List.range' start (n + 1)).flatMap f := by
  rw [List.range'_succ, List.flatMap_cons, List.flatMap_cons, if_pos rfl, List.append_assoc]
  congr 2
  refine List.flatMap_congr fun i mem => ?_
  have := (List.mem_range'_1.mp mem).1
  rw [if_neg (by omega), List.nil_append]

/-- What is written nowhere but past an offset of a run.  It skips what an edit covers.
-/
theorem flatMap_range'_last {α : Type} {start stop : Nat} (le : start ≤ stop) (n : Nat)
    (f : Nat → List α) :
    (List.range' start (stop - start + n)).flatMap (fun i => if i < stop then [] else f i) =
      (List.range' stop n).flatMap f := by
  have split : List.range' start (stop - start + n) =
      List.range' start (stop - start) ++ List.range' stop n := by
    rw [← List.range'_append_1, Nat.add_sub_of_le le]
  have before : (List.range' start (stop - start)).flatMap
      (fun i => if i < stop then [] else f i) = [] := by
    refine List.flatMap_eq_nil_iff.mpr fun i mem => ?_
    have := List.mem_range'_1.mp mem
    exact if_pos (by omega)
  rw [split, List.flatMap_append, before, List.nil_append]
  refine List.flatMap_congr fun i mem => ?_
  have := (List.mem_range'_1.mp mem).1
  exact if_neg (by omega)

variable {source : List UInt8}

@[simp] theorem insertedAt_cons (edit : Edit) (rest : List Edit) (offset : Nat) :
    insertedAt (edit :: rest) offset =
      (if offset = edit.start ∧ edit.rank = 0 then edit.bytes else []) ++
        insertedAt rest offset := by
  simp only [insertedAt, List.filter_cons, Edit.insertsAt_iff]
  split <;> simp

@[simp] theorem replacedFrom_cons (edit : Edit) (rest : List Edit) (offset : Nat) :
    replacedFrom (edit :: rest) offset =
      (if offset = edit.start ∧ edit.rank = 1 then edit.bytes else []) ++
        replacedFrom rest offset := by
  simp only [replacedFrom, List.filter_cons, Edit.replacesFrom_iff]
  split <;> simp

@[simp] theorem keptAt_cons (edit : Edit) (rest : List Edit) (offset : Nat) :
    keptAt source (edit :: rest) offset =
      if edit.covers offset then [] else keptAt source rest offset := by
  by_cases h : edit.covers offset = true <;> simp [keptAt, h]

/-- Nothing is inserted where no insertion begins. -/
theorem insertedAt_eq_nil {edits : List Edit} {offset : Nat}
    (h : ∀ edit ∈ edits, edit.rank = 0 → offset ≠ edit.start) : insertedAt edits offset = [] := by
  rw [insertedAt, List.filter_eq_nil_iff.mpr, List.flatMap_nil]
  intro edit mem inserts
  obtain ⟨place, rank⟩ := Edit.insertsAt_iff.mp inserts
  exact h edit mem rank place

/-- Nothing is replaced where no replacement begins. -/
theorem replacedFrom_eq_nil {edits : List Edit} {offset : Nat}
    (h : ∀ edit ∈ edits, edit.rank = 1 → offset ≠ edit.start) : replacedFrom edits offset = [] := by
  rw [replacedFrom, List.filter_eq_nil_iff.mpr, List.flatMap_nil]
  intro edit mem replaces
  obtain ⟨place, rank⟩ := Edit.replacesFrom_iff.mp replaces
  exact h edit mem rank place

/-- **Nothing is written before the first edit.**  So what is copied up to the first
edit is the old text. -/
theorem writtenAt_of_lt {edits : List Edit} {offset : Nat}
    (after : ∀ edit ∈ edits, offset < edit.start) :
    writtenAt source edits offset = source[offset]?.toList := by
  have covered : edits.any (Edit.covers offset) = false := by
    rw [List.any_eq_false]
    intro edit mem inside
    have := after edit mem
    have := Edit.covers_iff.mp inside
    omega
  rw [writtenAt, insertedAt_eq_nil fun edit mem _ => Nat.ne_of_lt (after edit mem),
    replacedFrom_eq_nil fun edit mem _ => Nat.ne_of_lt (after edit mem), keptAt, covered]
  rfl

/-- **From the start of an edit on**, its text is written first, and then, past its end,
what the edits after it write.  The condition on the order keeps an insertion from
standing behind a replacement that begins with it. -/
theorem writtenAt_cons {edit : Edit} {rest : List Edit} {offset : Nat} (le : edit.start ≤ offset)
    (sorted : ∀ next ∈ rest, edit.comesBefore next = true)
    (follow : ∀ next ∈ rest, edit.stop ≤ next.start) :
    writtenAt source (edit :: rest) offset =
      (if offset = edit.start then edit.bytes else []) ++
        if offset < edit.stop then [] else writtenAt source rest offset := by
  have covered : edit.covers offset = decide (offset < edit.stop) := by simp [Edit.covers, le]
  rw [writtenAt, insertedAt_cons, replacedFrom_cons, keptAt_cons, covered]
  rcases edit.rank_cases with ⟨rank, hstop⟩ | rank
  · have outside : ¬ offset < edit.stop := by omega
    simp [rank, outside, writtenAt]
  · by_cases inside : offset < edit.stop
    · -- no other edit begins inside this one
      have apart : ∀ next ∈ rest, offset ≠ next.start := by
        intro next mem
        have := follow next mem
        omega
      rw [insertedAt_eq_nil fun next mem _ => apart next mem,
        replacedFrom_eq_nil fun next mem _ => apart next mem]
      simp [rank, inside]
    · by_cases first : offset = edit.start
      · -- insertions at this offset come before the replacement, so none is left
        have none : insertedAt rest offset = [] := by
          refine insertedAt_eq_nil ?_
          intro next mem isInsertion here
          have := Edit.comesBefore_iff.mp (sorted next mem)
          omega
        rw [writtenAt, none]
        subst first
        simp [rank, inside]
      · simp [rank, inside, first, writtenAt]

/-- **What the sweep writes, offset by offset.**  An induction on the edits: the run of
offsets is cut at the start of the first edit and at its end. -/
theorem spliced_eq_flatMap {cursor : Nat} {edits : List Edit} (le : cursor ≤ source.length)
    (sorted : edits.Pairwise fun a b => a.comesBefore b = true)
    (follow : edits.Pairwise fun a b => a.stop ≤ b.start)
    (after : ∀ edit ∈ edits, cursor ≤ edit.start)
    (ranges : ∀ edit ∈ edits, edit.start ≤ edit.stop ∧ edit.stop ≤ source.length) :
    spliced source cursor edits =
      (List.range' cursor (source.length + 1 - cursor)).flatMap (writtenAt source edits) := by
  induction edits generalizing cursor with
  | nil =>
      have whole : writtenAt source [] = fun offset => source[offset]?.toList := rfl
      rw [whole, flatMap_getElem?_range', List.take_of_length_le (by rw [List.length_drop]; omega)]
      rfl
  | cons edit rest ih =>
      obtain ⟨sortedFirst, sortedRest⟩ := List.pairwise_cons.mp sorted
      obtain ⟨followFirst, followRest⟩ := List.pairwise_cons.mp follow
      obtain ⟨⟨start_le, stop_le⟩, rangesRest⟩ := List.forall_mem_cons.mp ranges
      have cursor_le := after edit List.mem_cons_self
      -- up to the edit, from there to its end, and from there on
      have split : List.range' cursor (source.length + 1 - cursor) =
          List.range' cursor (edit.start - cursor) ++
            List.range' edit.start (edit.stop - edit.start + (source.length + 1 - edit.stop)) := by
        have offsets := List.range'_append_1 (s := cursor) (m := edit.start - cursor)
          (n := edit.stop - edit.start + (source.length + 1 - edit.stop))
        rw [show cursor + (edit.start - cursor) = edit.start by omega] at offsets
        rw [offsets]
        congr 1
        omega
      have before : (List.range' cursor (edit.start - cursor)).flatMap
          (writtenAt source (edit :: rest)) = Text.between cursor edit.start source := by
        rw [Text.between, List.drop_take, ← flatMap_getElem?_range']
        refine List.flatMap_congr fun offset mem => writtenAt_of_lt fun other hother => ?_
        have lt := (List.mem_range'_1.mp mem).2
        rcases List.mem_cons.mp hother with rfl | later
        · omega
        · have := followFirst other later
          omega
      have fromStart : (List.range' edit.start
          (edit.stop - edit.start + (source.length + 1 - edit.stop))).flatMap
            (writtenAt source (edit :: rest)) = edit.bytes ++ spliced source edit.stop rest := by
        rw [List.flatMap_congr fun offset mem =>
          writtenAt_cons (List.mem_range'_1.mp mem).1 sortedFirst followFirst]
        rw [show edit.stop - edit.start + (source.length + 1 - edit.stop) =
          edit.stop - edit.start + (source.length - edit.stop) + 1 by omega, flatMap_range'_first,
          Nat.add_assoc, flatMap_range'_last start_le, ih stop_le sortedRest followRest followFirst
            rangesRest, show source.length - edit.stop + 1 = source.length + 1 - edit.stop by omega]
      rw [split, List.flatMap_append, before, fromStart, spliced, List.append_assoc]

/-! ## In any order -/

/-- What stands in place of an offset does not depend on the order of the sweep.  It
depends on the edits that are alike, and on nothing else. -/
theorem writtenAt_congr {edits others : List Edit}
    (same : ∀ edit : Edit, others.filter edit.isAlike = edits.filter edit.isAlike)
    (offset : Nat) : writtenAt source others offset = writtenAt source edits offset := by
  have inserts := same (.insert offset "")
  have replaces := same (.replace offset offset "")
  rw [Edit.isAlike_insert] at inserts
  rw [Edit.isAlike_replace] at replaces
  have covered : others.any (Edit.covers offset) = edits.any (Edit.covers offset) := by
    rw [Bool.eq_iff_iff, List.any_eq_true, List.any_eq_true]
    exact exists_congr fun edit => and_congr_left' (mem_iff_of_filter_isAlike (same edit))
  rw [writtenAt, writtenAt, insertedAt, insertedAt, replacedFrom, replacedFrom, keptAt, keptAt,
    inserts, replaces, covered]

/-- **What applied edits leave behind**, in bytes.  The edits are put in order for the
sweep and taken out of order again by `writtenAt_congr`. -/
theorem bytes_of_applyEdits {source output : String} {edits : List Edit}
    (applied : applyEdits source edits = .ok output) :
    Text.bytes output.toList = written (Text.bytes source.toList) edits := by
  have swept := applyEdits_eq_ok_iff.mp applied
  obtain ⟨ranges, follow, after⟩ := exists_sweep_eq_ok_iff.mp ⟨output.toList, swept⟩
  rw [bytes_of_sweep (Text.isBoundary_zero _) swept,
    spliced_eq_flatMap (Nat.zero_le _) (pairwise_inOrder edits) follow after, written,
    List.range_eq_range', Nat.sub_zero]
  · exact List.flatMap_congr fun offset _ => writtenAt_congr (filter_inOrder edits) offset
  · intro edit mem
    rw [Text.length_bytes]
    exact ⟨start_le_stop_of_isRangeOf (ranges edit mem),
      Text.le_byteLength_of_isBoundary (isBoundary_of_isRangeOf (ranges edit mem)).2⟩

/-- **Applied edits are written offset by offset.**  In place of every offset of the source, from
the first to the end, stand the texts of the insertions there, in the order of the list, the texts
of the replacements that begin there, in the order of the list, and the byte of the source unless a
replacement covers it.  Only the order among edits of one kind at one offset matters: any list with
the same edits of each kind at each offset, in the same order, has the same output. -/
theorem edits_written_by_offset (source output : String) (edits : List Edit)
    (applied : applyEdits source edits = .ok output) :
    output.toUTF8.data.toList = written source.toUTF8.data.toList edits ∧
      ∀ others : List Edit,
        (∀ edit : Edit, others.filter edit.isAlike = edits.filter edit.isAlike) →
          applyEdits source others = .ok output := by
  refine ⟨?_, fun others same => ?_⟩
  · rw [Text.toUTF8_eq_bytes, Text.toUTF8_eq_bytes]
    exact bytes_of_applyEdits applied
  · rw [applyEdits, inOrder_congr same]
    exact applied

namespace Specimen

/-- Insertions at one offset, with an empty replacement and another that begin there. -/
def gathered : List Edit :=
  [.replace 3 3 "x", .replace 3 4 "C", .insert 7 "!", .insert 3 "i", .insert 0 "<", .insert 3 "j"]

/-- The same edits, each kind at each offset in the same order. -/
def regathered : List Edit :=
  [.insert 3 "i", .insert 7 "!", .replace 3 3 "x", .insert 3 "j", .replace 3 4 "C", .insert 0 "<"]

theorem filter_regathered (edit : Edit) :
    regathered.filter edit.isAlike = gathered.filter edit.isAlike := by
  cases edit with
  | insert place text =>
      by_cases three : place = 3
      · subst three
        rfl
      · by_cases seven : place = 7
        · subst seven
          rfl
        · simp [regathered, gathered, List.filter_cons, Edit.isAlike, Edit.start, Edit.rank, three,
            seven]
  | replace start stop text =>
      simp [regathered, gathered, List.filter_cons, Edit.isAlike, Edit.start, Edit.rank]

end Specimen

/-- Insertions come first, then replacements; elsewhere the text is kept. -/
theorem edits_written_by_offset_specimen :
    applyEdits "aßcdef" Specimen.gathered = .ok "<aßijxCdef!" ∧
      "<aßijxCdef!".toUTF8.data.toList = written "aßcdef".toUTF8.data.toList Specimen.gathered ∧
      applyEdits "aßcdef" Specimen.regathered = .ok "<aßijxCdef!" := by
  have applied : applyEdits "aßcdef" Specimen.gathered = .ok "<aßijxCdef!" := by cbv
  obtain ⟨bytes, any⟩ := edits_written_by_offset _ _ _ applied
  exact ⟨applied, bytes, any _ Specimen.filter_regathered⟩

end AliasHoist
