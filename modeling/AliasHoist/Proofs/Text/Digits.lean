import AliasHoist.Text.Digits
import Mathlib.Algebra.Group.Nat.Defs

/-!
# Reading digits back

The digits of a number are read back as that number, whatever follows them, as long as it is no digit.

## Main Statements

* `ofDigits_natDigits`, `ofDigits_paddedDigits`: reading undoes writing;
* `spanDigits_append`, `spanDigits_natDigits`: digits are told from what follows them;
* `natDigits_ne_zero_cons`: a number with several digits does not start with a zero.
-/

namespace AliasHoist.Text

/-- Reading the digits of a number gives the number. -/
@[simp] theorem ofDigits_natDigits (n : Nat) : ofDigits (natDigits n) = n :=
  Nat.ofDigitChars_toDigits (by decide) (by decide)

theorem natDigits_ne_nil (n : Nat) : natDigits n ≠ [] := Nat.toDigits_ne_nil

theorem isDigit_of_mem_natDigits {n : Nat} {c : Char} (h : c ∈ natDigits n) : c.isDigit = true :=
  Nat.isDigit_of_mem_toDigits (by decide) (by decide) h

/-- The digits in front of something that does not start with a digit.  The end of the
text will do as well. -/
theorem spanDigits_append {digits rest : List Char} (h : ∀ c ∈ digits, c.isDigit = true)
    (stop : ∀ c, rest.head? = some c → c.isDigit = false) :
    spanDigits (digits ++ rest) = (digits, rest) := by
  have none : rest.takeWhile Char.isDigit = [] ∧ rest.dropWhile Char.isDigit = rest := by
    cases rest with
    | nil => exact ⟨rfl, rfl⟩
    | cons c cs => simp [stop c rfl]
  rw [spanDigits, List.takeWhile_append_of_pos h, List.dropWhile_append_of_pos h, none.1, none.2,
    List.append_nil]

theorem spanDigits_natDigits (n : Nat) {rest : List Char}
    (stop : ∀ c, rest.head? = some c → c.isDigit = false) :
    spanDigits (natDigits n ++ rest) = (natDigits n, rest) :=
  spanDigits_append (fun _ => isDigit_of_mem_natDigits) stop

/-- A number with more than one digit does not start with a zero.  The reader of numbers
refuses a zero at the start when another digit follows. -/
theorem natDigits_ne_zero_cons (n : Nat) (c : Char) (rest : List Char) :
    natDigits n ≠ '0' :: c :: rest := by
  induction n using Nat.strongRecOn generalizing c rest with
  | _ n ih =>
    intro h
    by_cases small : n < 10
    · rw [natDigits, Nat.toDigits_of_lt_base small] at h
      simp at h
    · rw [natDigits, Nat.toDigits_of_base_le (by decide) (Nat.le_of_not_lt small)] at h
      have front := ih (n / 10) (by omega)
      rw [natDigits] at front
      cases hfront : Nat.toDigits 10 (n / 10) with
      | nil => exact Nat.toDigits_ne_nil hfront
      | cons first others =>
          rw [hfront, List.cons_append, List.cons.injEq] at h
          obtain ⟨rfl, h⟩ := h
          cases others with
          | cons second more => exact front second more hfront
          | nil =>
              have zero : ofDigits ['0'] = n / 10 := by
                rw [← hfront, ← natDigits, ofDigits_natDigits]
              have : ofDigits ['0'] = 0 := rfl
              omega

/-! ## Digits filled up with zeros -/

theorem ofDigits_replicate_zero_append (k : Nat) (digits : List Char) :
    ofDigits (List.replicate k '0' ++ digits) = ofDigits digits := by
  induction k with
  | zero => rfl
  | succ k ih =>
      rw [List.replicate_succ, List.cons_append]
      simpa [ofDigits, digitValue] using ih

/-- Zeros in front of the digits do not change the number. -/
@[simp] theorem ofDigits_paddedDigits (width n : Nat) : ofDigits (paddedDigits width n) = n := by
  rw [paddedDigits, ofDigits_replicate_zero_append, ofDigits_natDigits]

theorem isDigit_of_mem_paddedDigits {width n : Nat} {c : Char} (h : c ∈ paddedDigits width n) :
    c.isDigit = true := by
  rw [paddedDigits, List.mem_append] at h
  rcases h with zero | digit
  · rw [List.eq_of_mem_replicate zero]
    decide
  · exact isDigit_of_mem_natDigits digit

/-- Digits that are filled up have just the width, if the number fits.  Dates and times
have fields of a fixed width. -/
theorem length_paddedDigits {width n : Nat} (positive : 0 < width) (fits : n < 10 ^ width) :
    (paddedDigits width n).length = width := by
  have short : (natDigits n).length ≤ width :=
    (Nat.length_toDigits_le_iff (by decide) positive).mpr fits
  rw [paddedDigits, List.length_append, List.length_replicate]
  omega

end AliasHoist.Text
