import AliasHoist.Proofs.Naming.Freshness
import Mathlib.Order.Bounds.Basic

/-!
# Claiming names

A claim tries its base first and then the base with the numbers from two upward, until it meets a
name that is not taken.  Nothing in that search says how long it goes on.  It ends because the
taken names are finite in number, and where it ends is the name with the smallest number that is
free.

## Main Definitions

* `NameScope.Finds`: the search for a free name, one candidate after the other;
* `NameScope.claimEach`: the names that a sequence of claims gives.

## Main Statements

* `NameScope.isLeast_freeNumber`: a taken base gets the smallest number that makes it free;
* `NameScope.finds_iff`: the search ends, and with the claimed name only;
* `NameScope.claims_take_first_free`: what one claim and what a sequence of claims gives.

## Design Notes

`NameScope.claim` looks its number up in a list that is long enough, so that it is total by its
form.  `Finds` is the search without that bound: a derivation is a finite run of it, and there is
none where the search would go on for ever.
-/

namespace AliasHoist

namespace NameScope

variable {taken : List String} {base : String}

/-! ## The search -/

/-- **The search for a free name**: a candidate that is free is found, and one that is
taken gives way to the base with the next number.  It has no bound, unlike the function
that the program is modelled by. -/
inductive Finds (taken : List String) (base : String) : String → Nat → String → Prop where
  | free {candidate : String} {next : Nat} (free : candidate ∉ taken) :
      Finds taken base candidate next candidate
  | clash {candidate name : String} {next : Nat} (clash : candidate ∈ taken)
      (later : Finds taken base (numbered base next) (next + 1) name) :
      Finds taken base candidate next name

/-- The search finds one name at most.  So the search can be spoken of as a partial
function. -/
theorem Finds.unique {candidate name other : String} {next : Nat}
    (h : Finds taken base candidate next name) (h' : Finds taken base candidate next other) :
    name = other := by
  induction h with
  | free free =>
      cases h' with
      | free => rfl
      | clash clash => exact absurd clash free
  | clash clash _ ih =>
      cases h' with
      | free free => exact absurd clash free
      | clash _ later => exact ih later

/-- The search passes over numbers that are taken and ends at the first one that is
free.  It is an induction on the distance to the free number. -/
theorem finds_numbered {first number : Nat} (le : first ≤ number)
    (free : numbered base number ∉ taken)
    (clash : ∀ between, first ≤ between → between < number → numbered base between ∈ taken) :
    Finds taken base (numbered base first) (first + 1) (numbered base number) := by
  induction le using Nat.decreasingInduction with
  | self => exact .free free
  | of_succ first lt ih =>
      refine .clash (clash first (Nat.le_refl first) lt) (ih ?_)
      intro between le lt'
      exact clash between (Nat.le_of_succ_le le) lt'

/-- **A taken base gets the smallest number that makes it free.**  It is least among all
numbers, not only among those that the bounded search looks at. -/
theorem isLeast_freeNumber (mem : base ∈ taken) :
    IsLeast {number | 2 ≤ number ∧ numbered base number ∉ taken} (freeNumber taken base) := by
  refine ⟨⟨by rw [freeNumber]; omega, numbered_freeNumber_not_mem mem⟩, ?_⟩
  rintro number ⟨two, free⟩
  rw [freeNumber]
  obtain ⟨i, rfl⟩ := Nat.exists_eq_add_of_le' two
  refine Nat.add_le_add_right ?_ 2
  cases hfind : (List.range taken.length).find? fun i =>
      !taken.contains (numbered base (i + 2)) with
  | some first =>
      -- nothing before the first hit is one
      refine Nat.le_of_not_lt fun lt => ?_
      have := (List.find?_range_eq_some.mp hfind).2.2 i lt
      simp [free] at this
  | none =>
      obtain ⟨j, hj, free⟩ := exists_free_number mem
      have := List.find?_eq_none.mp hfind j (List.mem_range.mpr hj)
      simp [free] at this

/-- The search for a free name ends with the claimed name.  Hence the bound of the
program's form is never felt. -/
theorem finds_freeName (taken : List String) (base : String) :
    Finds taken base base 2 (freeName taken base) := by
  by_cases mem : base ∈ taken
  · obtain ⟨⟨two, free⟩, least⟩ := isLeast_freeNumber mem
    rw [freeName, if_pos (List.contains_iff_mem.mpr mem)]
    refine .clash mem (finds_numbered two free fun between le lt => ?_)
    by_contra free'
    exact Nat.not_le_of_lt lt (least ⟨le, free'⟩)
  · rw [freeName, if_neg (by simpa using mem)]
    exact .free mem

/-- **The search ends, and with the claimed name only.**  Existence and uniqueness in
one. -/
theorem finds_iff {name : String} :
    Finds taken base base 2 name ↔ name = freeName taken base :=
  ⟨fun h => h.unique (finds_freeName taken base), fun h => h ▸ finds_freeName taken base⟩

/-! ## Sequences of claims -/

/-- The names that claims of some bases give, one after the other.  Each claim sees the
names of those before it. -/
def claimEach (scope : NameScope) : List String → List String
  | [] => []
  | base :: rest => (scope.claim base).1 :: claimEach (scope.claim base).2 rest

/-- **Claims give names of their own**: they differ from each other and from those taken
before.  Both parts are carried along, for the second is what makes the first go
through. -/
theorem nodup_claimEach {scope : NameScope} (on : scope.disambiguate = true)
    (bases : List String) :
    (scope.claimEach bases).Nodup ∧ ∀ name ∈ scope.claimEach bases, name ∉ scope.taken := by
  induction bases generalizing scope with
  | nil => simp [claimEach]
  | cons base rest ih =>
      obtain ⟨nodup, fresh⟩ := ih ((claim_disambiguate scope base).trans on)
      rw [claim_of_on on] at nodup fresh
      rw [claimEach, claim_of_on on]
      refine ⟨List.nodup_cons.mpr ⟨fun mem => ?_, nodup⟩, ?_⟩
      · exact fresh _ mem List.mem_cons_self
      · intro name mem
        rcases List.mem_cons.mp mem with rfl | later
        · exact freeName_not_mem scope.taken base
        · exact fun before => fresh name later (List.mem_cons_of_mem _ before)

/-- **A claim takes the first name that is free.**  Whatever is taken, the search for a free name
ends, with the name that the claim gives and no other.  That is the base where the base is free, and
otherwise the base with the smallest number from two upward that makes it free.  The claim adds just
this name to those taken, and the names of a sequence of claims all differ. -/
theorem claims_take_first_free (taken : List String) (base : String) (bases : List String) :
    (∀ name, Finds taken base base 2 name ↔
      name = (claim { taken, disambiguate := true } base).1) ∧
    (base ∉ taken → (claim { taken, disambiguate := true } base).1 = base) ∧
    (base ∈ taken → ∃ number,
      IsLeast {number | 2 ≤ number ∧ numbered base number ∉ taken} number ∧
        (claim { taken, disambiguate := true } base).1 = numbered base number) ∧
    (claim { taken, disambiguate := true } base).1 ∉ taken ∧
    (∀ name, name ∈ (claim { taken, disambiguate := true } base).2.taken ↔
      name = (claim { taken, disambiguate := true } base).1 ∨ name ∈ taken) ∧
    (claimEach { taken, disambiguate := true } bases).Nodup := by
  rw [claim_of_on rfl]
  refine ⟨fun name => finds_iff, ?_, ?_, freeName_not_mem taken base, fun name => List.mem_cons,
    (nodup_claimEach rfl bases).1⟩
  · intro free
    exact if_neg (by simpa using free)
  · intro mem
    exact ⟨freeNumber taken base, isLeast_freeNumber mem,
      if_pos (List.contains_iff_mem.mpr mem)⟩

end NameScope

end AliasHoist
