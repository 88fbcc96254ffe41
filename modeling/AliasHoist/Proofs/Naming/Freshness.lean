import AliasHoist.Proofs.Rule.Detection
import Mathlib.Data.List.Nodup
import Mathlib.Data.List.Perm.Subperm

/-!
# Fresh alias names

Names are claimed one by one along the walk of the rule, and a claim may run into names of the file,
into earlier claims, and into names that already end with a number.  This module says what comes out
of it: the aliases of one round have names of their own.

## Main Definitions

* `TakesName`: the nodes whose names a file has taken before any claim;
* `aliasNames`: the names that the fixable findings of a round claim.

## Main Statements

* `freeName_not_mem`: a claimed name was not taken before;
* `alias_names_fresh`: the aliases of a round have different names, none of which the file uses.

### What is load-bearing

The search for a free number looks at as many numbers as names are taken.  It cannot fail: if all of
these numbered names were taken, then together with the base, which is taken too and none of them,
there would be more names than are taken (`exists_free_number`).
-/

namespace AliasHoist

namespace NameScope

/-! ## Numbered names -/

/-- Different numbers give different names.  So as many numbers give as many names. -/
theorem numbered_injective (base : String) : Function.Injective (numbered base) := by
  intro i j h
  have hdigits : Nat.toDigits 10 i = Nat.toDigits 10 j := by
    have hlists := congrArg String.toList h
    simpa [numbered, Nat.toString_eq_ofList_toDigits] using hlists
  -- reading the digits gives the number back
  have undone : Function.LeftInverse (Nat.ofDigitChars 10 · 0) (Nat.toDigits 10) :=
    fun _ => Nat.ofDigitChars_ten_toDigits
  exact undone.injective hdigits

/-- A number at the end makes another name.  It is one character longer at least. -/
theorem numbered_ne_base (base : String) (n : Nat) : numbered base n ≠ base := by
  intro h
  have hlength := congrArg (fun name => name.toList.length) h
  simp only [numbered, String.toList_append, List.length_append] at hlength
  have digits : (toString n).toList ≠ [] := by simp
  exact digits (List.length_eq_zero_iff.mp (by omega))

/-- **A taken name has a free number**, among as many numbers as names are taken.  It is
the pigeonhole principle, with the base as the name that leaves no room. -/
theorem exists_free_number {taken : List String} {base : String} (mem : base ∈ taken) :
    ∃ i < taken.length, numbered base (i + 2) ∉ taken := by
  by_contra none
  push Not at none
  -- all candidates and the base itself are taken, and they are one name too many
  let names := base :: (List.range taken.length).map fun i => numbered base (i + 2)
  have nodup : names.Nodup := by
    refine List.nodup_cons.mpr ⟨?_, ?_⟩
    · simp only [List.mem_map, not_exists, not_and]
      intro i _ h
      exact numbered_ne_base base (i + 2) h
    · refine List.nodup_range.map fun i j h => ?_
      have := numbered_injective base h
      omega
  have subset : names ⊆ taken := by
    intro name hname
    rcases List.mem_cons.mp hname with rfl | hnumbered
    · exact mem
    · obtain ⟨i, hi, rfl⟩ := List.mem_map.mp hnumbered
      exact none i (List.mem_range.mp hi)
  have := (List.subperm_of_subset nodup subset).length_le
  simp only [names, List.length_cons, List.length_map, List.length_range] at this
  omega

/-- The number that is found makes the name free. -/
theorem numbered_freeNumber_not_mem {taken : List String} {base : String} (mem : base ∈ taken) :
    numbered base (freeNumber taken base) ∉ taken := by
  rw [freeNumber]
  cases hfind : (List.range taken.length).find? fun i =>
      !taken.contains (numbered base (i + 2)) with
  | some i => simpa using List.find?_some hfind
  | none =>
      obtain ⟨i, hi, free⟩ := exists_free_number mem
      have := List.find?_eq_none.mp hfind i (List.mem_range.mpr hi)
      simp [free] at this

/-- **A claimed name was not taken before.**  This is freshness for a single claim,
whatever is taken. -/
theorem freeName_not_mem (taken : List String) (base : String) : freeName taken base ∉ taken := by
  rw [freeName]
  split
  · rename_i clash
    exact numbered_freeNumber_not_mem (List.contains_iff_mem.mp clash)
  · rename_i free
    simpa using free

/-- What a claim gives and leaves, where clashes are resolved.  Later claims see the new
name as taken. -/
theorem claim_of_on {scope : NameScope} (h : scope.disambiguate = true) (base : String) :
    scope.claim base = (freeName scope.taken base,
      { scope with taken := freeName scope.taken base :: scope.taken }) := by
  simp [claim, h]

end NameScope

variable (tree : SyntaxTree)

/-! ## The names of a round -/

/-- The names that the fixable findings of a round claim, in their order.  Findings
without a fix suggest a name, but nothing is written under it. -/
def aliasNames (findings : List Finding) : List String :=
  (findings.filter (·.isFixable)).map (·.aliasName)

/-- A finding that is withheld claims nothing; any other one claims a free name.  It is
one step of the walk, in the form of an invariant. -/
theorem reportLiteral_claims {names : NameScope} (on : names.disambiguate = true) (slot : TypeSlot)
    (literal : Nat) :
    ((reportLiteral tree names slot literal).1.isFixable = false ∧
        (reportLiteral tree names slot literal).2 = names) ∨
      ((reportLiteral tree names slot literal).1.isFixable = true ∧
        (reportLiteral tree names slot literal).1.aliasName ∉ names.taken ∧
        (reportLiteral tree names slot literal).2 =
          { names with taken :=
              (reportLiteral tree names slot literal).1.aliasName :: names.taken }) := by
  rw [reportLiteral]
  cases hoistAnchor tree slot.node literal with
  | error reason => exact Or.inl ⟨rfl, rfl⟩
  | ok anchor =>
      dsimp only
      rw [NameScope.claim_of_on on]
      exact Or.inr ⟨rfl, NameScope.freeName_not_mem _ _, rfl⟩

/-- **Along the walk names stay fresh**: the names claimed for a list of slots differ
from each other and from those taken before.  An induction on the slots, by
`reportLiteral_claims`. -/
theorem nodup_aliasNames_findingsFor (slots : List TypeSlot) {names : NameScope}
    (on : names.disambiguate = true) :
    (aliasNames (findingsFor tree names slots)).Nodup ∧
      ∀ name ∈ aliasNames (findingsFor tree names slots), name ∉ names.taken := by
  induction slots generalizing names with
  | nil => simp [findingsFor, aliasNames]
  | cons slot rest ih =>
      rw [findingsFor]
      cases offendingLiteral? tree slot with
      | none => exact ih on
      | some literal =>
          dsimp only
          rcases reportLiteral_claims tree on slot literal with ⟨withheld, same⟩ |
            ⟨fixable, free, taken⟩
          · rw [same]
            simpa [aliasNames, withheld] using ih on
          · rw [taken]
            have still : { names with taken :=
                (reportLiteral tree names slot literal).1.aliasName :: names.taken }.disambiguate =
                  true := on
            obtain ⟨nodup, fresh⟩ := ih still
            simp only [aliasNames, List.filter_cons_of_pos fixable, List.map_cons, List.nodup_cons,
              List.mem_cons, forall_eq_or_imp]
            refine ⟨⟨fun mem => ?_, nodup⟩, free, fun name mem => ?_⟩
            · exact fresh _ mem List.mem_cons_self
            · exact fun before => fresh name mem (List.mem_cons_of_mem _ before)

/-! ## The names of a file -/

/-- **The nodes that take a name in their file**: the name of a type alias, an
interface, a class or an enumeration, and every identifier below an import.  Variables
and functions are not among them, as they do not clash with types. -/
inductive TakesName : Nat → Prop where
  | declaration {id name : Nat}
      (kind : tree.kind id ∈ [.typeAlias, .interface, .classDeclaration, .enumeration])
      (first : IsFirstChild tree (tree.field? · = some .name) id name) : TakesName name
  | imported {id above : Nat} (kind : tree.kind id ∈ [.identifier, .typeIdentifier])
      (mem : above ∈ tree.ancestors id) (isImport : tree.kind above = .importStatement) :
      TakesName id

/-- The names of such nodes are taken before the first claim. -/
theorem text_mem_taken_of_takesName {id : Nat} (h : TakesName tree id) (disambiguate : Bool) :
    tree.text id ∈ (NameScope.ofTree tree disambiguate).taken := by
  cases h with
  | @declaration owner _ kind first =>
      have declares : (tree.kind owner).declaresType = true := by
        simp only [List.mem_cons, List.not_mem_nil, or_false] at kind
        rcases kind with h | h | h | h <;> rw [h] <;> rfl
      refine List.mem_filterMap.mpr ⟨owner, List.mem_range.mpr (lt_size_of_kind tree ?_), ?_⟩
      · rintro hother
        simp [hother] at kind
      · rw [NameScope.nameTakenBy?, if_pos declares, (childInField?_eq_some_iff tree).mpr first]
        rfl
  | @imported _ above kind mem isImport =>
      refine List.mem_filterMap.mpr ⟨id, List.mem_range.mpr (lt_size_of_kind tree ?_), ?_⟩
      · rintro hother
        simp [hother] at kind
      · simp only [List.mem_cons, List.not_mem_nil, or_false] at kind
        have name : NameScope.isImportedName tree id = true := by
          rw [NameScope.isImportedName, Bool.and_eq_true, List.any_eq_true]
          exact ⟨by rcases kind with h | h <;> simp [h], above, mem, by simp [isImport]⟩
        have declaresNothing : (tree.kind id).declaresType = false := by
          rcases kind with h | h <;> rw [h] <;> rfl
        rw [NameScope.nameTakenBy?, declaresNothing, if_neg Bool.false_ne_true, if_pos name]

/-- **The aliases of one round have names of their own.**  Where clashes are resolved, the alias
names of the fixable findings of a lowered tree differ from each other, from the name of every type
that the file declares at any depth, and from every identifier of its imports. -/
theorem alias_names_fresh (source : String) (raw : RawTree) (hasErrors : Bool) :
    (aliasNames (lint (.ofRaw source raw hasErrors) true)).Nodup ∧
      ∀ name ∈ aliasNames (lint (.ofRaw source raw hasErrors) true),
        ∀ id, TakesName (.ofRaw source raw hasErrors) id →
          name ≠ (SyntaxTree.ofRaw source raw hasErrors).text id := by
  have on : (NameScope.ofTree (.ofRaw source raw hasErrors) true).disambiguate = true := rfl
  obtain ⟨nodup, fresh⟩ := nodup_aliasNames_findingsFor (.ofRaw source raw hasErrors)
    (allSlots (.ofRaw source raw hasErrors)) on
  refine ⟨nodup, ?_⟩
  rintro _ mem id takes rfl
  exact fresh _ mem (text_mem_taken_of_takesName _ takes true)

end AliasHoist
