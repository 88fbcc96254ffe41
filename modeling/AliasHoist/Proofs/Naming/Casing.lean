import AliasHoist.Naming.Identifier

/-!
# Pascal case by position

Underscores in front of letters are collapsed from left to right, one or two characters at a time, and
the first character is upper-cased at the end.  The same can be said of each position on its own: what
becomes of a character depends on its two neighbours and on nothing else.

## Main Definitions

* `caseBetween`: what becomes of a character between its neighbours;
* `caseAtPositions`: the positions of a text, one after the other;
* `caseFrom`: the same, told along the text.

## Main Statements

* `caseAtPositions_eq`: positions and walk agree;
* `collapseUnderscores_eq_caseFrom`: underscores are collapsed by position;
* `pascalCase_by_position`: the Pascal-case form of a name, position by position.

### What is load-bearing

An underscore is no letter (`isAlphabetic_underscore`).  So a letter that is taken together with the
underscore before it is no underscore in front of the next letter, and each step of the walk ends at a
position that is not yet decided: the character before is no underscore, or the one to come no letter.
-/

namespace AliasHoist

open Text

/-! ## Positions -/

/-- **What becomes of a character between its neighbours.**  An underscore in front of a
letter goes away, a letter behind an underscore is upper-cased, and everything else
stays.  The conditions exclude each other, as an underscore is no letter. -/
def caseBetween (before : Option Char) (c : Char) (after : Option Char) : List Char :=
  if c = '_' ∧ after.any isAlphabetic then []
  else if isAlphabetic c ∧ before = some '_' then uppercase c
  else [c]

/-- **What becomes of a text**, position by position.  Neighbours are looked up in the
original text, so positions do not depend on each other. -/
def caseAtPositions (chars : List Char) : List Char :=
  chars.zipIdx.flatMap fun (c, i) =>
    caseBetween (if i = 0 then none else chars[i - 1]?) c chars[i + 1]?

/-- What becomes of the rest of a text, given the character before it.  One character of
look-behind and one of look-ahead are all it takes. -/
def caseFrom (before : Option Char) : List Char → List Char
  | [] => []
  | c :: rest => caseBetween before c rest.head? ++ caseFrom (some c) rest

@[simp] theorem caseFrom_nil (before : Option Char) : caseFrom before [] = [] := rfl

theorem caseFrom_cons (before : Option Char) (c : Char) (rest : List Char) :
    caseFrom before (c :: rest) = caseBetween before c rest.head? ++ caseFrom (some c) rest := rfl

/-- The positions of a text from some point on are those of the rest.  The front is
there to make an induction possible. -/
theorem flatMap_zipIdx_eq_caseFrom (front rest : List Char) :
    (rest.zipIdx front.length).flatMap (fun (c, i) =>
      caseBetween (if i = 0 then none else (front ++ rest)[i - 1]?) c (front ++ rest)[i + 1]?) =
      caseFrom front.getLast? rest := by
  induction rest generalizing front with
  | nil => rfl
  | cons c rest ih =>
      have before : (if front.length = 0 then none else (front ++ c :: rest)[front.length - 1]?) =
          front.getLast? := by
        rw [List.getLast?_eq_getElem?]
        cases front with
        | nil => rfl
        | cons first front =>
            rw [if_neg (by simp)]
            exact List.getElem?_append_left (by simp)
      have after : (front ++ c :: rest)[front.length + 1]? = rest.head? := by
        rw [List.getElem?_append_right (by omega), List.head?_eq_getElem?]
        simp
      have later := ih (front ++ [c])
      rw [List.length_append, List.length_singleton, List.append_assoc, List.singleton_append,
        List.getLast?_concat] at later
      rw [List.zipIdx_cons, List.flatMap_cons, later, caseFrom_cons]
      dsimp only
      rw [before, after]

/-- **Positions and walk agree.**  From here on only the walk is used. -/
theorem caseAtPositions_eq (chars : List Char) : caseAtPositions chars = caseFrom none chars :=
  flatMap_zipIdx_eq_caseFrom [] chars

/-! ## Collapsing -/

theorem ne_underscore_of_isAlphabetic {c : Char} (letter : isAlphabetic c = true) : c ≠ '_' := by
  rintro rfl
  simp at letter

/-- An underscore in front of a letter goes away.  Together with the next lemma it is
what collapsing does to a pair. -/
theorem caseBetween_underscore {before : Option Char} {next : Char} (letter : isAlphabetic next = true) :
    caseBetween before '_' (some next) = [] := if_pos ⟨rfl, letter⟩

/-- A letter behind an underscore is upper-cased.  What comes after the letter does not
matter. -/
theorem caseBetween_letter {after : Option Char} {c : Char} (letter : isAlphabetic c = true) :
    caseBetween (some '_') c after = uppercase c := by
  rw [caseBetween, if_neg fun mark => ne_underscore_of_isAlphabetic letter mark.1,
    if_pos ⟨letter, rfl⟩]

/-- A character that is not upper-cased, and no underscore in front of a letter, stays.
This includes an underscore at the end or before another underscore. -/
theorem caseBetween_eq_self {before after : Option Char} {c : Char}
    (lower : before = some '_' → isAlphabetic c = false)
    (kept : c = '_' → after.any isAlphabetic = false) : caseBetween before c after = [c] := by
  rw [caseBetween, if_neg, if_neg]
  · rintro ⟨letter, mark⟩
    simp [lower mark] at letter
  · rintro ⟨mark, letter⟩
    simp [kept mark] at letter

/-- **Underscores are collapsed by position**, from every position on at which no letter
waits behind an underscore.  The program consumes two characters at a time, and the
hypothesis says that it is not in the middle of a pair. -/
theorem collapseUnderscores_eq_caseFrom {before : Option Char} {chars : List Char}
    (settled : before = some '_' → chars.head?.any isAlphabetic = false) :
    collapseUnderscores chars = caseFrom before chars := by
  fun_induction collapseUnderscores chars generalizing before with
  | case1 => rfl
  | case2 c =>
      rw [caseFrom_cons, caseBetween_eq_self settled (fun _ => rfl)]
      rfl
  | case3 c next rest pair ih =>
      -- the letter is decided together with the underscore before it
      obtain ⟨rfl, letter⟩ := pair
      have ne := ne_underscore_of_isAlphabetic letter
      have later : collapseUnderscores rest = caseFrom (some next) rest := ih (by simp [ne])
      rw [caseFrom_cons, List.head?_cons, caseBetween_underscore letter, List.nil_append,
        caseFrom_cons, caseBetween_letter letter, later]
  | case4 c next rest alone ih =>
      have settled' : c = '_' → (some next).any isAlphabetic = false := fun mark => by
        simpa [mark] using alone
      have later : collapseUnderscores (next :: rest) = caseFrom (some c) (next :: rest) :=
        ih (by simpa using settled')
      rw [caseFrom_cons, List.head?_cons, caseBetween_eq_self settled settled', later]
      rfl

/-- The Pascal-case form of a name, as the walk along it gives it.  The program works on
texts and this on characters. -/
theorem toList_pascalCase (name : String) :
    (pascalCase name).toList = capitalize (caseFrom none name.toList) := by
  have collapsed : collapseUnderscores name.toList = caseFrom none name.toList :=
    collapseUnderscores_eq_caseFrom (by simp)
  rw [pascalCase, String.toList_ofList, collapsed]

/-- **Pascal case by position.**  The Pascal-case form of a name is what becomes of its characters, each
between its neighbours, with the first of the characters that come out, if any, upper-cased. -/
theorem pascalCase_by_position (name : String) :
    (pascalCase name).toList =
      ((caseAtPositions name.toList).take 1).flatMap uppercase ++
        (caseAtPositions name.toList).drop 1 := by
  rw [toList_pascalCase, caseAtPositions_eq]
  cases caseFrom none name.toList with
  | nil => rfl
  | cons first rest =>
      rw [capitalize, List.take_succ_cons, List.take_zero, List.flatMap_singleton, List.drop_succ_cons,
        List.drop_zero]

end AliasHoist
