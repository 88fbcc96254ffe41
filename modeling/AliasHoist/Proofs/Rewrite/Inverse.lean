import AliasHoist.Proofs.Rewrite.Application
import AliasHoist.Proofs.Text.Bytes
import Mathlib

/-!
# Taking edits back

Edits that have been applied can be taken back by edits: each of them replaces the text that an edit
has written by the text that it has removed.  In the output the written text stands where the edit
began, moved by as much as the edits before it have made the text longer or shorter.

## Main Definitions

* `Edit.growth`: by how much an edit makes a text longer;
* `Edit.inverse`: the edit that takes an edit back;
* `inverses`: the edits that take a list of edits back;
* `TakesBack`: an edit of the output that puts back what an edit of the source removed;
* `Midway`: how far a sweep has read the source and written the output.

## Main Statements

* `sweep_cons_iff_parts`: a step of the sweep, on the parts that it cuts the text in;
* `Midway.step`: what one edit does in the middle of a sweep;
* `Midway.sweep_inversesFrom`: from there on, the inverses give back the rest of the source;
* `applied_edits_undone`: the inverses of applied edits are applied to the output, and give back the
  source.

### What is load-bearing

The induction is on the edits, with both texts cut where the sweep is: what it has read of the
source and what it has written in its stead differ in length by the growth so far.  Inverses are all
replacements, so edits at one offset are not sorted by their kind any more; they keep their order
because each begins no earlier than the one before it ends.
-/

namespace AliasHoist

/-! ## Inverses -/

namespace Edit

/-- By how many bytes an edit makes a text longer, less than none if it makes it
shorter.  It is an integer, and so sums of growths need no order. -/
def growth (edit : Edit) : Int :=
  (Text.byteLength edit.text.toList : Int) - ((edit.stop : Int) - (edit.start : Int))

/-- **The edit that takes an edit back**, given by how much the edits before it have
made the text longer: the text that the edit has written is replaced by the text that it
has removed.  Its place is computed as an integer, though it never becomes negative for
edits that were applied. -/
def inverse (source : List Char) (shift : Int) (edit : Edit) : Edit :=
  let place := ((edit.start : Int) + shift).toNat
  .replace place (place + Text.byteLength edit.text.toList)
    (String.ofList (Text.sliceBytes edit.start edit.stop source))

end Edit

/-- The inverses of edits in the order of the sweep, each moved by the growth of those
before it.  The list has to be in the order of the sweep for the growths to add up. -/
def inversesFrom (source : List Char) (shift : Int) : List Edit → List Edit
  | [] => []
  | edit :: rest => edit.inverse source shift :: inversesFrom source (shift + edit.growth) rest

/-- **The edits that take a list of edits back.** -/
def inverses (source : String) (edits : List Edit) : List Edit :=
  inversesFrom source.toList 0 (inOrder edits)

/-- An edit of the output **takes back** an edit of the source: it stands where the
output has the text of the other, and has the text that the source has in the other's
place.  Both parts are about slices at boundaries of characters, so the inverse is a
range of the output. -/
structure TakesBack (source output : String) (edit inverse : Edit) : Prop where
  written : Text.slice? output inverse.start inverse.stop = some edit.text
  removed : Text.slice? source edit.start edit.stop = some inverse.text

/-! ## A step of the sweep -/

/-- **A step of the sweep, on the parts that it cuts the text in**: what is kept up to
the edit, what the edit removes, and what is behind it.  With parts instead of offsets,
texts can be compared by appending. -/
theorem sweep_cons_iff_parts {source before after : List Char} {edit : Edit} {rest : List Edit}
    {text : List Char} (cut : source = before ++ after) :
    sweep source (Text.byteLength before) (edit :: rest) = .ok text ↔
      ∃ kept removed behind tail, after = kept ++ (removed ++ behind) ∧
        edit.start = Text.byteLength (before ++ kept) ∧
        edit.stop = Text.byteLength (before ++ kept ++ removed) ∧
        sweep source edit.stop rest = .ok tail ∧ text = kept ++ edit.text.toList ++ tail := by
  rw [sweep_cons_eq_ok_iff]
  constructor
  · rintro ⟨range, le, tail, swept, rfl⟩
    -- the edit begins and ends between characters, so it cuts what is unread twice
    obtain ⟨hstart, hstop⟩ := isBoundary_of_isRangeOf range
    subst cut
    obtain ⟨kept, later, rfl, start_eq⟩ := Text.exists_halves_of_isBoundary_append hstart le
    rw [← List.append_assoc] at hstop
    obtain ⟨removed, behind, rfl, stop_eq⟩ := Text.exists_halves_of_isBoundary_append hstop
      (start_eq ▸ start_le_stop_of_isRangeOf range)
    refine ⟨kept, removed, behind, tail, rfl, start_eq.symm, stop_eq.symm, swept, ?_⟩
    rw [← start_eq, Text.sliceBytes_append]
  · rintro ⟨kept, removed, behind, tail, rfl, start_eq, stop_eq, swept, rfl⟩
    subst cut
    refine ⟨?_, ?_, tail, swept, ?_⟩
    · have hstart :
        Text.isBoundary edit.start (before ++ (kept ++ (removed ++ behind))) = true := by
        rw [start_eq, ← List.append_assoc]
        exact Text.isBoundary_append _ _
      have hstop : Text.isBoundary edit.stop (before ++ (kept ++ (removed ++ behind))) = true := by
        rw [stop_eq, ← List.append_assoc kept, ← List.append_assoc before,
          ← List.append_assoc before]
        exact Text.isBoundary_append _ _
      have le : edit.start ≤ edit.stop := by
        rw [start_eq, stop_eq, Text.byteLength_append (before ++ kept)]
        exact Nat.le_add_right _ _
      simp [isRangeOf, hstart, hstop, le]
    · rw [start_eq, Text.byteLength_append]
      exact Nat.le_add_right _ _
    · rw [start_eq, Text.sliceBytes_append]

/-! ## In the middle of a sweep -/

/-- **A sweep in the middle of its work**: it has read one part of the source and
written one part of the output, which differ in length by the shift, and what it still
writes is the rest of the output.  Nothing in it mentions the list of edits that were
done, only what they have left behind. -/
structure Midway (source output before after front tail : List Char) (shift : Int)
    (edits : List Edit) : Prop where
  read : source = before ++ after
  written : output = front ++ tail
  shifted : (Text.byteLength front : Int) = (Text.byteLength before : Int) + shift
  swept : sweep source (Text.byteLength before) edits = .ok tail

/-- At the start nothing has been read, nothing has been written, and nothing is moved. -/
theorem midway_start {source output : List Char} {edits : List Edit}
    (swept : sweep source 0 edits = .ok output) :
    Midway source output [] source [] output 0 edits where
  read := rfl
  written := rfl
  shifted := rfl
  swept := swept

namespace Midway

variable {source output before after front tail : List Char} {shift : Int} {edit : Edit}
  {rest : List Edit}

/-- **What one edit does in the middle of a sweep**: behind it, the sweep has also read
what is kept up to the edit and what the edit removes, and has written the one and the
text of the edit.  The shift grows by what this edit adds. -/
theorem step (h : Midway source output before after front tail shift (edit :: rest)) :
    ∃ kept removed behind later,
      after = kept ++ (removed ++ behind) ∧ tail = kept ++ (edit.text.toList ++ later) ∧
      edit.start = Text.byteLength (before ++ kept) ∧
      edit.stop = Text.byteLength (before ++ kept ++ removed) ∧
      Midway source output (before ++ kept ++ removed) behind (front ++ kept ++ edit.text.toList)
        later (shift + edit.growth) rest := by
  obtain ⟨kept, removed, behind, later, rfl, start_eq, stop_eq, swept, rfl⟩ :=
    (sweep_cons_iff_parts h.read).mp h.swept
  refine ⟨kept, removed, behind, later, rfl, List.append_assoc _ _ _, start_eq, stop_eq, ?_⟩
  constructor
  · rw [h.read]
    simp
  · rw [h.written]
    simp
  · have shifted := h.shifted
    unfold Edit.growth
    rw [stop_eq, start_eq]
    simp only [Text.byteLength_append]
    omega
  · rwa [← stop_eq]

section Place

variable {kept removed behind : List Char}
variable (h : Midway source output before (kept ++ (removed ++ behind)) front tail shift
  (edit :: rest))
variable (start_eq : edit.start = Text.byteLength (before ++ kept))
include h start_eq

/-- The inverse of the next edit begins behind what is kept up to the edit.  So the
sweep of the inverses meets it where it stands. -/
theorem start_inverse : (edit.inverse source shift).start = Text.byteLength (front ++ kept) := by
  have shifted := h.shifted
  show ((edit.start : Int) + shift).toNat = _
  rw [start_eq, Text.byteLength_append, Text.byteLength_append]
  omega

/-- It ends behind the text that the edit has written.  The removed text has become the
written one. -/
theorem stop_inverse :
    (edit.inverse source shift).stop = Text.byteLength (front ++ kept ++ edit.text.toList) := by
  have start : (edit.inverse source shift).start = _ := h.start_inverse start_eq
  rw [Text.byteLength_append, ← start]
  rfl

/-- It has the text that the edit removes. -/
theorem text_inverse (stop_eq : edit.stop = Text.byteLength (before ++ kept ++ removed)) :
    (edit.inverse source shift).text = String.ofList removed := by
  show String.ofList (Text.sliceBytes edit.start edit.stop source) = _
  rw [start_eq, stop_eq, h.read, ← List.append_assoc before, Text.sliceBytes_append]

end Place

/-- **The inverses give back the rest of the source**, from any point of the sweep on.
An induction on the edits by `Midway.step`, in which both sweeps go one edit further. -/
theorem sweep_inversesFrom {edits : List Edit}
    (h : Midway source output before after front tail shift edits) :
    sweep output (Text.byteLength front) (inversesFrom source shift edits) = .ok after := by
  induction edits generalizing before after front tail shift with
  | nil =>
      -- what is behind the last edit is the same in both texts
      obtain ⟨rfl, rfl, _, swept⟩ := h
      obtain rfl := Except.ok.inj swept
      show Except.ok (Text.dropBytes _ (front ++ _)) = Except.ok after
      rw [Text.dropBytes_append, Text.dropBytes_append]
  | cons edit rest ih =>
      obtain ⟨kept, removed, behind, later, rfl, rfl, start_eq, stop_eq, next⟩ := h.step
      have stop : (edit.inverse source shift).stop = _ := h.stop_inverse start_eq
      -- the inverse keeps what the edit keeps, and its end is where the other inverses go on from
      have restored := ih next
      rw [← stop] at restored
      refine (sweep_cons_iff_parts h.written).mpr ⟨kept, edit.text.toList, later, behind, rfl,
        h.start_inverse start_eq, stop, restored, ?_⟩
      rw [h.text_inverse start_eq stop_eq, String.toList_ofList, List.append_assoc]

/-- Each inverse takes back its edit.  It follows the same induction. -/
theorem forall₂_inversesFrom {edits : List Edit}
    (h : Midway source output before after front tail shift edits) :
    List.Forall₂ (TakesBack (String.ofList source) (String.ofList output)) edits
      (inversesFrom source shift edits) := by
  induction edits generalizing before after front tail shift with
  | nil => exact .nil
  | cons edit rest ih =>
      obtain ⟨kept, removed, behind, later, rfl, rfl, start_eq, stop_eq, next⟩ := h.step
      refine .cons ⟨?_, ?_⟩ (ih next)
      · rw [h.start_inverse start_eq, h.stop_inverse start_eq, next.written,
          List.append_assoc (front ++ kept), Text.slice?_append, String.ofList_toList]
      · rw [h.text_inverse start_eq stop_eq, start_eq, stop_eq, next.read,
          List.append_assoc (before ++ kept), Text.slice?_append]

end Midway

/-! ## The order of the inverses -/

/-- Inverses are all replacements. -/
theorem rank_of_mem_inversesFrom {source : List Char} {shift : Int} {edits : List Edit}
    {edit : Edit} (mem : edit ∈ inversesFrom source shift edits) : edit.rank = 1 := by
  induction edits generalizing shift with
  | nil => exact absurd mem List.not_mem_nil
  | cons first rest ih =>
      rcases List.mem_cons.mp mem with rfl | later
      · rfl
      · exact ih later

/-- **Inverses that can be applied are in order already.**  Sorting is stable, so edits
at one offset stay as they are. -/
theorem inOrder_inversesFrom {source output text : List Char} {cursor : Nat} {shift : Int}
    {edits : List Edit} (swept : sweep output cursor (inversesFrom source shift edits) = .ok text) :
    inOrder (inversesFrom source shift edits) = inversesFrom source shift edits := by
  obtain ⟨ranges, follow, _⟩ := exists_sweep_eq_ok_iff.mp ⟨text, swept⟩
  apply List.mergeSort_of_pairwise
  refine follow.imp_of_mem ?_
  intro a b ha hb behind
  -- among replacements only the beginnings count, and the later one begins where the earlier ends
  have le := start_le_stop_of_isRangeOf (ranges a ha)
  have rankA := rank_of_mem_inversesFrom ha
  have rankB := rank_of_mem_inversesFrom hb
  rw [Edit.comesBefore_iff]
  omega

/-- **Applied edits are taken back by edits.**  Wherever a list of edits is applied, each of them
can be taken back in the output: there its text stands where it began, moved by the growth of the
edits before it in the order of the sweep, and is replaced by the part of the source that it
removed.  These inverses are applied, and give back the source. -/
theorem applied_edits_undone (source output : String) (edits : List Edit)
    (applied : applyEdits source edits = .ok output) :
    applyEdits output (inverses source edits) = .ok source ∧
      List.Forall₂ (TakesBack source output) (inOrder edits) (inverses source edits) := by
  have start := midway_start (applyEdits_eq_ok_iff.mp applied)
  have restored : sweep output.toList 0 (inverses source edits) = .ok source.toList :=
    start.sweep_inversesFrom
  constructor
  · rw [applyEdits_eq_ok_iff, inverses, inOrder_inversesFrom restored]
    exact restored
  · have back := start.forall₂_inversesFrom
    rwa [String.ofList_toList, String.ofList_toList] at back

namespace Specimen

/-- Edits at one offset, and edits that leave nothing. -/
def scattered : List Edit :=
  [.replace 3 4 "", .insert 1 "ö", .replace 1 3 "", .insert 1 "i", .replace 4 4 ""]

end Specimen

/-- What was put in goes, and what was taken out comes back, all at one place of the output. -/
theorem applied_edits_undone_specimen :
    applyEdits "aßcdef" Specimen.scattered = .ok "aöidef" ∧
      inverses "aßcdef" Specimen.scattered =
        [.replace 1 3 "", .replace 3 4 "", .replace 4 4 "ß", .replace 4 4 "c", .replace 4 4 ""] ∧
      applyEdits "aöidef" (inverses "aßcdef" Specimen.scattered) = .ok "aßcdef" := by
  have applied : applyEdits "aßcdef" Specimen.scattered = .ok "aöidef" := by cbv
  exact ⟨applied, by cbv, (applied_edits_undone _ _ _ applied).1⟩

end AliasHoist
