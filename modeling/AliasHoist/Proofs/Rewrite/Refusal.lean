import AliasHoist.Proofs.Rewrite.Order

/-!
# Why a list of edits is refused

A list of edits is refused for the first of them, in the order of application, that is at fault.  An
edit is at fault when it is no range of the text, or when it begins before the end of an edit that
is applied before it; and where only the second can happen, none is at fault exactly when no two
overlap.

## Main Definitions

* `IsFault`: what is wrong with an edit of a list.

## Main Statements

* `sweep_eq_error_iff`: the sweep stops at the first edit that it cannot apply;
* `applyEdits_eq_error_iff`: the error is the fault of the first edit that is at fault;
* `edits_refused_for_first_fault`: both ways of looking at a list of edits agree.

### What is load-bearing

The sweep compares an edit with the end of the one before it only.  That is enough because an edit
without a fault ends no earlier than all before it, so the cursor never moves back.
-/

namespace AliasHoist

/-- **What is wrong with an edit of a list**, given with its position: it is no range of
the text, or it begins before the end of an edit that is applied before it.  An edit
that is no range is not asked for overlaps, so it has one fault at most. -/
inductive IsFault (source : List Char) (edits : List Edit) (entry : Edit × Nat) :
    EditError → Prop where
  | outOfBounds (noRange : isRangeOf source entry.1 = false) :
      IsFault source edits entry
        (.outOfBounds entry.1.start entry.1.stop (Text.byteLength source))
  | overlap {other : Edit × Nat} (range : isRangeOf source entry.1 = true)
      (mem : other ∈ edits.zipIdx) (before : Precedes other entry)
      (into : entry.1.start < other.1.stop) : IsFault source edits entry (.overlap entry.1.start)

/-! ## Where the sweep stops -/

/-- **The sweep stops at the first edit that it cannot apply.**  It is the counterpart
of `exists_sweep_eq_ok_iff` for failures, and an induction of the same form. -/
theorem sweep_eq_error_iff {source : List Char} {cursor : Nat} {edits : List Edit}
    {error : EditError} :
    sweep source cursor edits = .error error ↔
      ∃ before edit after, edits = before ++ edit :: after ∧
        (∃ text, sweep source cursor before = .ok text) ∧
        (isRangeOf source edit = false ∧
            error = .outOfBounds edit.start edit.stop (Text.byteLength source) ∨
          isRangeOf source edit = true ∧
            (edit.start < cursor ∨ ∃ other ∈ before, edit.start < other.stop) ∧
            error = .overlap edit.start) := by
  induction edits generalizing cursor with
  | nil => simp [sweep]
  | cons first rest ih =>
      constructor
      · intro stopped
        rw [sweep] at stopped
        cases range : isRangeOf source first with
        | false =>
            simp only [range, Bool.not_false, if_true, Except.error.injEq] at stopped
            exact ⟨[], first, rest, rfl, ⟨_, rfl⟩, Or.inl ⟨range, stopped.symm⟩⟩
        | true =>
            simp only [range, Bool.not_true, Bool.false_eq_true, if_false] at stopped
            by_cases lt : first.start < cursor
            · rw [if_pos lt, Except.error.injEq] at stopped
              exact ⟨[], first, rest, rfl, ⟨_, rfl⟩, Or.inr ⟨range, Or.inl lt, stopped.symm⟩⟩
            · rw [if_neg lt] at stopped
              have later : sweep source first.stop rest = .error error := by
                cases swept : sweep source first.stop rest with
                | error found => rw [swept] at stopped; exact stopped
                | ok text => rw [swept] at stopped; simp [Except.map] at stopped
              obtain ⟨before, edit, after, rfl, applied, fault⟩ := ih.mp later
              refine ⟨first :: before, edit, after, rfl,
                exists_sweep_cons_iff.mpr ⟨range, by omega, applied⟩, ?_⟩
              rcases fault with noRange | ⟨isRange, into, heq⟩
              · exact Or.inl noRange
              · refine Or.inr ⟨isRange, Or.inr ?_, heq⟩
                rcases into with inFirst | ⟨other, mem, inOther⟩
                · exact ⟨first, List.mem_cons_self, inFirst⟩
                · exact ⟨other, List.mem_cons_of_mem _ mem, inOther⟩
      · rintro ⟨before, edit, after, split, applied, fault⟩
        cases before with
        | nil =>
            obtain ⟨rfl, rfl⟩ := List.cons.inj split
            rcases fault with ⟨noRange, rfl⟩ | ⟨range, into, rfl⟩
            · rw [sweep, noRange]
              rfl
            · have lt : first.start < cursor := into.resolve_right (by simp)
              rw [sweep, range, if_neg (by simp), if_pos lt]
        | cons front before =>
            obtain ⟨rfl, same⟩ := List.cons.inj split
            obtain ⟨range, le, applied⟩ := exists_sweep_cons_iff.mp applied
            have later : sweep source first.stop rest = .error error := by
              refine ih.mpr ⟨before, edit, after, same, applied, ?_⟩
              rcases fault with noRange | ⟨isRange, into, heq⟩
              · exact Or.inl noRange
              · refine Or.inr ⟨isRange, ?_, heq⟩
                -- the cursor has moved to the end of the first edit
                have := start_le_stop_of_isRangeOf range
                rcases into with inCursor | ⟨other, mem, inOther⟩
                · exact Or.inl (by omega)
                · rcases List.mem_cons.mp mem with rfl | further
                  · exact Or.inl inOther
                  · exact Or.inr ⟨other, further, inOther⟩
            rw [sweep, range, if_neg (by simp), if_neg (by omega), later]
            rfl

/-- Applying edits fails as the sweep does over the edits in order. -/
theorem applyEdits_eq_error {source : String} {edits : List Edit} {error : EditError} :
    applyEdits source edits = .error error ↔
      sweep source.toList 0 (inOrder edits) = .error error := by
  rw [applyEdits]
  cases sweep source.toList 0 (inOrder edits) with
  | error found => simp [Except.map]
  | ok text => simp [Except.map]

/-! ## The first fault -/

section Placed

variable {edits : List Edit} {entry : Edit × Nat} {before after : List (Edit × Nat)}
variable (split : placed edits = before ++ entry :: after)
include split

/-- **What precedes an entry stands before it.**  The entries are sorted strictly, so
standing before and preceding are the same. -/
theorem mem_before_iff {other : Edit × Nat} :
    other ∈ before ↔ other ∈ edits.zipIdx ∧ Precedes other entry := by
  have sorted := pairwise_placed edits
  rw [split, List.pairwise_append, List.pairwise_cons] at sorted
  obtain ⟨_, ⟨later, _⟩, cross⟩ := sorted
  rw [← mem_placed_iff, split, List.mem_append]
  constructor
  · intro mem
    exact ⟨Or.inl mem, cross other mem entry List.mem_cons_self⟩
  · rintro ⟨earlier | rest, precedes⟩
    · exact earlier
    · rcases List.mem_cons.mp rest with rfl | behind
      · exact absurd precedes (Precedes.irrefl _)
      · exact absurd precedes (later other behind).asymm

/-- What stands before an entry is swept without an error exactly when none of it is at
fault.  It turns the success of a part of the sweep into the absence of faults. -/
theorem exists_sweep_before_iff {source : List Char} :
    (∃ text, sweep source 0 (before.map (·.1)) = .ok text) ↔
      ∀ other ∈ edits.zipIdx, Precedes other entry →
        ∀ fault, ¬ IsFault source edits other fault := by
  have sorted : before.Pairwise Precedes := by
    have := pairwise_placed edits
    rw [split, List.pairwise_append] at this
    exact this.1
  rw [exists_sweep_eq_ok_iff, List.pairwise_map]
  constructor
  · rintro ⟨ranges, follow, _⟩ other mem precedes fault isFault
    have inBefore := (mem_before_iff split).mpr ⟨mem, precedes⟩
    have range := ranges other.1 (List.mem_map_of_mem inBefore)
    cases isFault with
    | outOfBounds noRange => simp [noRange] at range
    | @overlap third _ memThird earlier into =>
        -- the third stands before the other, and what stands before it ends before it
        obtain ⟨front, back, rfl⟩ := List.append_of_mem inBefore
        have splitOther : placed edits = front ++ other :: (back ++ entry :: after) := by
          rw [split]
          simp
        have inFront := (mem_before_iff splitOther).mpr ⟨memThird, earlier⟩
        have := (List.pairwise_append.mp follow).2.2 third inFront other List.mem_cons_self
        omega
  · intro clean
    have clean' : ∀ other ∈ before, ∀ fault, ¬ IsFault source edits other fault := fun other mem =>
      clean other ((mem_before_iff split).mp mem).1 ((mem_before_iff split).mp mem).2
    have ranges : ∀ other ∈ before, isRangeOf source other.1 = true := fun other mem =>
      Bool.of_not_eq_false fun noRange => clean' other mem _ (.outOfBounds noRange)
    refine ⟨?_, ?_, fun _ _ => Nat.zero_le _⟩
    · intro edit mem
      obtain ⟨other, hother, rfl⟩ := List.mem_map.mp mem
      exact ranges other hother
    · refine sorted.imp_of_mem fun {a b} ha hb precedes => ?_
      refine Nat.le_of_not_lt fun into => clean' b hb (.overlap b.1.start) ?_
      exact .overlap (ranges b hb) ((mem_before_iff split).mp ha).1 precedes into

end Placed

/-- **A list of edits is refused for the first edit that is at fault.**  Which fault it
is follows, since an edit has one at most. -/
theorem applyEdits_eq_error_iff {source : String} {edits : List Edit} {error : EditError} :
    applyEdits source edits = .error error ↔
      ∃ entry ∈ edits.zipIdx, IsFault source.toList edits entry error ∧
        ∀ other ∈ edits.zipIdx, Precedes other entry →
          ∀ fault, ¬ IsFault source.toList edits other fault := by
  rw [applyEdits_eq_error, sweep_eq_error_iff, ← map_placed]
  constructor
  · rintro ⟨front, edit, back, split, applied, fault⟩
    obtain ⟨before, rest, hplaced, rfl, hrest⟩ := List.map_eq_append_iff.mp split
    obtain ⟨entry, after, rfl, rfl, rfl⟩ := List.map_eq_cons_iff.mp hrest
    have mem : entry ∈ edits.zipIdx := by
      rw [← mem_placed_iff, hplaced]
      simp
    refine ⟨entry, mem, ?_, (exists_sweep_before_iff hplaced).mp applied⟩
    rcases fault with ⟨noRange, rfl⟩ | ⟨range, into, rfl⟩
    · exact .outOfBounds noRange
    · obtain ⟨_, mapped, inOther⟩ := into.resolve_left (Nat.not_lt_zero _)
      obtain ⟨other, inBefore, rfl⟩ := List.mem_map.mp mapped
      obtain ⟨memOther, precedes⟩ := (mem_before_iff hplaced).mp inBefore
      exact .overlap range memOther precedes inOther
  · rintro ⟨entry, mem, fault, clean⟩
    obtain ⟨before, after, hplaced⟩ := List.append_of_mem (mem_placed_iff.mpr mem)
    refine ⟨before.map (·.1), entry.1, after.map (·.1), by rw [hplaced]; simp,
      (exists_sweep_before_iff hplaced).mpr clean, ?_⟩
    cases fault with
    | outOfBounds noRange => exact Or.inl ⟨noRange, rfl⟩
    | @overlap other range memOther precedes into =>
        have inBefore := (mem_before_iff hplaced).mpr ⟨memOther, precedes⟩
        exact Or.inr ⟨range, Or.inr ⟨other.1, List.mem_map_of_mem inBefore, into⟩, rfl⟩

/-- Edits that are all ranges of the text can only be refused for an overlap.  The
offset is that of the later of the two edits. -/
theorem exists_overlap_of_refused {source : String} {edits : List Edit}
    (ranges : ∀ edit ∈ edits, isRangeOf source.toList edit = true)
    (refused : ¬ ∃ text, applyEdits source edits = .ok text) :
    ∃ offset, applyEdits source edits = .error (.overlap offset) := by
  cases result : applyEdits source edits with
  | ok text => exact absurd ⟨text, result⟩ refused
  | error error =>
      obtain ⟨entry, mem, fault, _⟩ := applyEdits_eq_error_iff.mp result
      cases fault with
      | outOfBounds noRange =>
          have range := ranges entry.1 (List.fst_mem_of_mem_zipIdx mem)
          simp [noRange] at range
      | overlap _ _ _ _ => exact ⟨_, rfl⟩

/-- That no two edits at different positions overlap, by one order of the positions.
Overlap is symmetric, so the order makes no difference. -/
theorem pairwise_overlaps_iff {edits : List Edit} :
    (edits.Pairwise fun a b => a.overlaps b = false) ↔
      ∀ i j : Fin edits.length, i ≠ j → edits[i].overlaps edits[j] = false := by
  rw [List.pairwise_iff_getElem]
  constructor
  · intro apart i j ne
    rcases Nat.lt_or_gt_of_ne (Fin.val_ne_of_ne ne) with lt | gt
    · exact apart i j i.isLt j.isLt lt
    · rw [Edit.overlaps_comm]
      exact apart j i j.isLt i.isLt gt
  · intro apart i j hi hj lt
    exact apart ⟨i, hi⟩ ⟨j, hj⟩ (Fin.ne_of_lt lt)

/-- **A list of edits is refused for its first fault, and for overlaps alone where all edits are
proper ranges.**  Any list is refused exactly when an edit is at fault, with the fault of the first
such edit in the order by offset, insertions before replacements, and position; and the text is left
out of the answer.  Where every edit is a range of the text and no replacement is empty, the list is
applied exactly when no two edits at different positions overlap, and refused for an overlap
otherwise. -/
theorem edits_refused_for_first_fault (source : String) (edits : List Edit) :
    (∀ error, applyEdits source edits = .error error ↔
      ∃ entry ∈ edits.zipIdx, IsFault source.toList edits entry error ∧
        ∀ other ∈ edits.zipIdx, Precedes other entry →
          ∀ fault, ¬ IsFault source.toList edits other fault) ∧
    ((∀ edit ∈ edits, isRangeOf source.toList edit = true ∧ edit.isProper = true) →
      ((∃ text, applyEdits source edits = .ok text) ↔
        ∀ i j : Fin edits.length, i ≠ j → edits[i].overlaps edits[j] = false) ∧
      ((∃ i j : Fin edits.length, i ≠ j ∧ edits[i].overlaps edits[j] = true) →
        ∃ offset, applyEdits source edits = .error (.overlap offset))) := by
  refine ⟨fun error => applyEdits_eq_error_iff, fun proper => ?_⟩
  have ranges : ∀ edit ∈ edits, isRangeOf source.toList edit = true := fun edit mem =>
    (proper edit mem).1
  have applies : (∃ text, applyEdits source edits = .ok text) ↔
      ∀ i j : Fin edits.length, i ≠ j → edits[i].overlaps edits[j] = false := by
    rw [← pairwise_overlaps_iff]
    exact exists_applyEdits_eq_ok_iff ranges fun edit mem => (proper edit mem).2
  refine ⟨applies, ?_⟩
  rintro ⟨i, j, ne, overlap⟩
  refine exists_overlap_of_refused ranges fun applied => ?_
  rw [applies.mp applied i j ne] at overlap
  simp at overlap

namespace Specimen

/-- Two replacements that touch, with an insertion between them and one at an offset. -/
def touching (offset : Nat) : List Edit :=
  [.replace 3 6 "b", .insert offset "i", .replace 0 3 "a", .insert 3 "j"]

end Specimen

/-- An insertion at the start of a replacement is applied, one inside it is refused. -/
theorem edits_refused_for_first_fault_specimen :
    (∀ edit ∈ Specimen.touching 0, isRangeOf "aßcdef".toList edit = true ∧ edit.isProper = true) ∧
      (∃ text, applyEdits "aßcdef" (Specimen.touching 0) = .ok text) ∧
      (∀ edit ∈ Specimen.touching 1, isRangeOf "aßcdef".toList edit = true ∧ edit.isProper = true) ∧
      ∃ offset, applyEdits "aßcdef" (Specimen.touching 1) = .error (.overlap offset) :=
  ⟨by decide,
    ((edits_refused_for_first_fault "aßcdef" (Specimen.touching 0)).2 (by decide)).1.mpr (by decide),
    by decide,
    ((edits_refused_for_first_fault "aßcdef" (Specimen.touching 1)).2 (by decide)).2
      ⟨⟨1, by decide⟩, ⟨2, by decide⟩, by decide, by decide⟩⟩

end AliasHoist
