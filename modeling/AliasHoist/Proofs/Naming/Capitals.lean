import AliasHoist.Naming.Identifier

/-!
# Upper-case forms in identifiers

The upper-case form of a letter starts with a letter.  What follows it, if anything, are letters too, with
one exception: some letters with marks above or below have no capital of their own, and their upper-case
form is a plain capital with combining marks behind it.  A combining mark may not stand in an identifier.

## Main Definitions

* `combiningMarks`: the marks that occur in upper-case forms;
* `markedLetters`: the letters whose upper-case form has such a mark.

## Main Statements

* `exists_uppercase_eq`: what the upper-case form of a letter is made of.

## Design Notes

The tables are checked once, with one statement for each thing that is said of their entries.  Runs are
checked as a whole: if both ends of a shifted run are in one run of letters, so is all that is between.
-/

namespace AliasHoist

open Text

/-- The combining marks that occur in upper-case forms.  They are the only characters in
upper-case forms that an identifier may not have. -/
def combiningMarks : List Nat := [0x300, 0x301, 0x308, 0x30a, 0x30c, 0x313, 0x331, 0x342]

/-- **The letters whose upper-case form has combining marks.**  They are the exceptions
in everything that follows, and there are no others. -/
def markedLetters : List Nat := [
  0x1f0, 0x390, 0x3b0, 0x1e96, 0x1e97, 0x1e98, 0x1e99, 0x1f50, 0x1f52, 0x1f54, 0x1f56, 0x1fb6, 0x1fb7,
  0x1fc6, 0x1fc7, 0x1fd2, 0x1fd3, 0x1fd6, 0x1fd7, 0x1fe2, 0x1fe3, 0x1fe4, 0x1fe6, 0x1fe7, 0x1ff6,
  0x1ff7]

/-! ## Runs of code points -/

/-- Whether one of the given runs covers all from one code point to another.  The kernel
evaluates it on numbers, for every run of the tables. -/
def spansRange (runs : List (Nat × Nat)) (low high : Nat) : Bool :=
  runs.any fun run => Nat.ble high run.2 && Nat.ble run.1 low

/-- What is between the ends of a part of a run is in the run. -/
theorem inRuns_of_spansRange {runs : List (Nat × Nat)} {low high code : Nat}
    (spans : spansRange runs low high = true) (le : low ≤ code) (ge : code ≤ high) :
    inRuns runs code = true := by
  obtain ⟨run, mem, covers⟩ := List.any_eq_true.mp spans
  rw [Bool.and_eq_true, Nat.ble_eq, Nat.ble_eq] at covers
  exact inRuns_eq_true_iff.mpr ⟨run, mem, Nat.le_trans covers.2 le, Nat.le_trans ge covers.1⟩

/-- No run has surrogates in it or goes beyond the last code point. -/
theorem valid_of_mem_alphabeticRuns :
    ∀ run ∈ alphabeticRuns, run.2 < 0xd800 ∨ (0xdfff < run.1 ∧ run.2 < 0x110000) := by
  decide +kernel

/-- Letters are characters.  So code points and characters need not be told apart here.
-/
theorem toNat_ofNat_of_inRuns {code : Nat} (letter : inRuns alphabeticRuns code = true) :
    (Char.ofNat code).toNat = code := by
  obtain ⟨run, mem, low, high⟩ := inRuns_eq_true_iff.mp letter
  have range := valid_of_mem_alphabeticRuns run mem
  have valid : code.isValidChar := by
    rw [Nat.isValidChar]
    omega
  rw [Char.ofNat, dif_pos valid]
  rfl

/-- The character with the code point of a letter is a letter.  The tables speak of code
points and the program of characters. -/
theorem isAlphabetic_ofNat {code : Nat} (letter : inRuns alphabeticRuns code = true) :
    isAlphabetic (Char.ofNat code) = true := by
  rw [isAlphabetic, toNat_ofNat_of_inRuns letter]
  exact letter

/-! ## Forms of one character -/

/-- Shifted runs are runs of letters, or at least all that they move is shifted to
letters; nothing is shifted to a marked letter.  It is evaluated entry by entry; runs
with steps are looked at member by member where that is needed. -/
theorem shifted_of_mem_uppercaseRuns : ∀ run ∈ uppercaseRuns,
    (spansRange alphabeticRuns (run.first + run.shift).toNat (run.last + run.shift).toNat = true ∨
      ∀ code ∈ List.range' run.first ((run.last - run.first) / run.step + 1) run.step,
        spansRange alphabeticRuns (code + run.shift).toNat (code + run.shift).toNat = true) ∧
      (markedLetters.any fun letter => Nat.ble (run.first + run.shift).toNat letter &&
        Nat.ble letter (run.last + run.shift).toNat) = false := by
  decide +kernel

/-- What a run with a step covers is one of its members. -/
theorem CaseRun.mem_range'_of_covers {run : CaseRun} {code : Nat} (covers : run.covers code = true) :
    code ∈ List.range' run.first ((run.last - run.first) / run.step + 1) run.step := by
  simp only [CaseRun.covers, Bool.and_eq_true, decide_eq_true_eq, beq_iff_eq] at covers
  obtain ⟨⟨low, high⟩, aligned⟩ := covers
  have moved := Nat.mul_div_cancel' (Nat.dvd_of_mod_eq_zero aligned)
  have steps : (code - run.first) / run.step ≤ (run.last - run.first) / run.step :=
    Nat.div_le_div_right (by omega)
  exact List.mem_range'.mpr ⟨(code - run.first) / run.step, by omega, by omega⟩

/-- **A character that is moved to another one is moved to a letter**, and to none that
has marks.  It is what the table of runs is good for below. -/
theorem CaseRun.shifted_of_covers {run : CaseRun} (mem : run ∈ uppercaseRuns) {code : Nat}
    (covers : run.covers code = true) :
    inRuns alphabeticRuns (code + run.shift).toNat = true ∧
      (code + run.shift).toNat ∉ markedLetters := by
  have bounds := covers
  simp only [CaseRun.covers, Bool.and_eq_true, decide_eq_true_eq] at bounds
  have low : (run.first + run.shift).toNat ≤ (code + run.shift).toNat := by omega
  have high : (code + run.shift).toNat ≤ (run.last + run.shift).toNat := by omega
  obtain ⟨letters, unmarked⟩ := shifted_of_mem_uppercaseRuns run mem
  constructor
  · rcases letters with whole | each
    · exact inRuns_of_spansRange whole low high
    · exact inRuns_of_spansRange (each code (mem_range'_of_covers covers)) (Nat.le_refl _) (Nat.le_refl _)
  · intro marked
    have := List.any_eq_false.mp unmarked _ marked
    simp only [Bool.and_eq_true, Nat.ble_eq] at this
    exact this ⟨low, high⟩

/-! ## Forms of several characters -/

/-- Forms of several characters are made of letters and combining marks.  They start
with a letter without marks, and it is the marked letters that have combining marks
behind it.  The three parts are checked in one pass over the table. -/
theorem parts_of_mem_uppercaseExpansions : ∀ entry ∈ uppercaseExpansions,
    (∀ code ∈ entry.2, code ∈ combiningMarks ∨ spansRange alphabeticRuns code code = true) ∧
      (∃ code ∈ entry.2.head?, code ∉ combiningMarks ∧ code ∉ markedLetters) ∧
      (entry.1 ∈ markedLetters ↔ ∃ code ∈ entry.2.tail, code ∈ combiningMarks) := by
  decide +kernel

/-- Marked letters are letters and have forms of several characters.  So being marked is
no matter of letters that do not exist. -/
theorem forms_of_mem_markedLetters : ∀ letter ∈ markedLetters,
    spansRange alphabeticRuns letter letter = true ∧
      (uppercaseExpansions.lookup letter).isSome = true := by
  decide +kernel

theorem inRuns_of_mem_markedLetters {letter : Nat} (mem : letter ∈ markedLetters) :
    inRuns alphabeticRuns letter = true :=
  inRuns_of_spansRange (forms_of_mem_markedLetters letter mem).1 (Nat.le_refl _) (Nat.le_refl _)

/-- **Combining marks may not stand in an identifier.**  This is why the upper-case form
of a marked letter spoils a name. -/
theorem continuesIdentifier_combiningMark : ∀ code ∈ combiningMarks,
    continuesIdentifier (Char.ofNat code) = false := by
  decide +kernel

theorem continuesIdentifier_of_isAlphabetic {c : Char} (letter : isAlphabetic c = true) :
    continuesIdentifier c = true := by
  simp [continuesIdentifier, letter]

/-- **The upper-case form of a letter.**  It starts with a letter that has no marks, and
all of it may stand in an identifier unless the letter itself is a marked one.  It joins
the two tables and the letters that are in neither. -/
theorem exists_uppercase_eq {c : Char} (letter : isAlphabetic c = true) :
    ∃ first rest, uppercase c = first :: rest ∧ isAlphabetic first = true ∧
      first.toNat ∉ markedLetters ∧
      ((∀ d ∈ rest, continuesIdentifier d = true) ↔ c.toNat ∉ markedLetters) := by
  rw [uppercase]
  cases hlookup : uppercaseExpansions.lookup c.toNat with
  | some codes =>
      obtain ⟨before, after, table, -⟩ := List.lookup_eq_some_iff.mp hlookup
      have mem : (c.toNat, codes) ∈ uppercaseExpansions := by
        rw [table]
        simp
      obtain ⟨made, ⟨code, hhead, noMark, unmarked⟩, marked_iff⟩ :=
        parts_of_mem_uppercaseExpansions _ mem
      obtain ⟨rest, rfl⟩ : ∃ rest, codes = code :: rest := List.head?_eq_some_iff.mp hhead
      have parts {other : Nat} (hother : other ∈ code :: rest) (noMark : other ∉ combiningMarks) :
          inRuns alphabeticRuns other = true :=
        inRuns_of_spansRange ((made other hother).resolve_left noMark) (Nat.le_refl _) (Nat.le_refl _)
      have first := parts List.mem_cons_self noMark
      refine ⟨Char.ofNat code, rest.map Char.ofNat, rfl, isAlphabetic_ofNat first, ?_, ?_⟩
      · rwa [toNat_ofNat_of_inRuns first]
      · rw [not_congr marked_iff]
        constructor
        · rintro all ⟨mark, hmark, combining⟩
          have stays := all _ (List.mem_map_of_mem hmark)
          rw [continuesIdentifier_combiningMark mark combining] at stays
          contradiction
        · intro none d hd
          obtain ⟨other, hother, rfl⟩ := List.mem_map.mp hd
          have := parts (List.mem_cons_of_mem _ hother) fun mark => none ⟨other, hother, mark⟩
          exact continuesIdentifier_of_isAlphabetic (isAlphabetic_ofNat this)
  | none =>
      have unmarked : c.toNat ∉ markedLetters := fun marked => by
        simpa [hlookup] using (forms_of_mem_markedLetters _ marked).2
      cases hfind : uppercaseRuns.find? (·.covers c.toNat) with
      | some run =>
          obtain ⟨shifted, plain⟩ := CaseRun.shifted_of_covers (List.mem_of_find?_eq_some hfind)
            (List.find?_some (p := fun run : CaseRun => run.covers c.toNat) hfind)
          refine ⟨_, [], rfl, isAlphabetic_ofNat shifted, ?_, by simp [unmarked]⟩
          rwa [toNat_ofNat_of_inRuns shifted]
      | none => exact ⟨c, [], rfl, letter, unmarked, by simp [unmarked]⟩

end AliasHoist
