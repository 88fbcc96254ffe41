import AliasHoist.Proofs.Naming.Claiming
import AliasHoist.Proofs.Rule.Scoping

/-!
# Aliases and type parameters around them

The name that a literal leaves behind is read in the literal's old place, where the type parameters
around it are in scope.  Claims look at the names of the file and at earlier claims, and the search
for captured names looks at what the literal uses; neither asks whether a type parameter has the
name of the alias.  This module says which name an alias gets, and so when it meets one.

## Main Definitions

* `NameScope.IsFirstFree`: the first free one of a name and its numbered forms;
* `IsTaken`: the names that are taken when a literal claims its own;
* `IsTypeParameterAround`: the type parameters that are in scope at a literal;
* `ClearOfTypeParameters`: no alias has the name of a type parameter around its literal.

## Main Statements

* `NameScope.isFirstFree_freeName`: a claim gives the first free name;
* `exists_getElem?_findingsFor`: the names that are taken at each step of the walk;
* `clearOfTypeParameters_iff`: an alias meets a type parameter when that is the first free name;
* `alias_hides_typeParameter`: that happens.
-/

namespace AliasHoist

namespace NameScope

/-! ## The first free name -/

/-- **The first free one of a name and its numbered forms**, counted from two.  The
taken names are given by a property, so that they can be described without a list. -/
inductive IsFirstFree (Taken : String → Prop) (base : String) : String → Prop where
  | base (free : ¬ Taken base) : IsFirstFree Taken base base
  | numbered {n : Nat} (clash : Taken base) (two : 2 ≤ n)
      (before : ∀ m, 2 ≤ m → m < n → Taken (numbered base m)) (free : ¬ Taken (numbered base n)) :
      IsFirstFree Taken base (numbered base n)

/-- There is one first free name.  It makes "the first free name" something that can be
equated with the alias. -/
theorem IsFirstFree.unique {Taken : String → Prop} {base name name' : String}
    (h : IsFirstFree Taken base name) (h' : IsFirstFree Taken base name') : name = name' := by
  cases h with
  | base free =>
      cases h' with
      | base _ => rfl
      | numbered clash _ _ _ => exact absurd clash free
  | @numbered n clash two before free =>
      cases h' with
      | base free' => exact absurd clash free'
      | @numbered n' _ two' before' free' =>
          rcases Nat.lt_trichotomy n n' with lt | rfl | gt
          · exact absurd (before' n two lt) free
          · rfl
          · exact absurd (before n' two' gt) free'

/-- **A claim gives the first free name**: the number that makes a taken base free is the least one that
does, so the search passes over every number before it. -/
theorem isFirstFree_freeName (taken : List String) (base : String) :
    IsFirstFree (· ∈ taken) base (freeName taken base) := by
  by_cases mem : base ∈ taken
  · obtain ⟨⟨two, free⟩, least⟩ := isLeast_freeNumber mem
    rw [freeName, if_pos (List.contains_iff_mem.mpr mem)]
    refine .numbered mem two (fun m two' lt => ?_) free
    by_contra free'
    exact Nat.not_le_of_lt lt (least ⟨two', free'⟩)
  · rw [freeName, if_neg (by simpa using mem)]
    exact .base mem

/-- What is first free does not depend on how the taken names are told.  It is used to
replace the list of the walk by `IsTaken`. -/
theorem IsFirstFree.congr {Taken Taken' : String → Prop} {base name : String}
    (h : IsFirstFree Taken base name) (same : ∀ name, Taken name ↔ Taken' name) :
    IsFirstFree Taken' base name := by
  obtain rfl : Taken = Taken' := by
    funext name
    exact propext (same name)
  exact h

end NameScope

variable (tree : SyntaxTree)

/-! ## The names that are taken -/

/-- The names of a file are those of its declarations and imports.  With
`text_mem_taken_of_takesName` both directions are known. -/
theorem mem_taken_iff {disambiguate : Bool} {name : String} :
    name ∈ (NameScope.ofTree tree disambiguate).taken ↔
      ∃ id, TakesName tree id ∧ tree.text id = name := by
  constructor
  · intro mem
    obtain ⟨id, _, takes⟩ := List.mem_filterMap.mp mem
    rw [NameScope.nameTakenBy?] at takes
    split at takes
    · rename_i declares
      obtain ⟨child, hchild, rfl⟩ := Option.map_eq_some_iff.mp takes
      refine ⟨child, .declaration ?_ ((childInField?_eq_some_iff tree).mp hchild), rfl⟩
      revert declares
      cases tree.kind id <;> simp [NodeKind.declaresType]
    · split at takes
      · rename_i isImported
        rw [NameScope.isImportedName, Bool.and_eq_true, List.any_eq_true] at isImported
        obtain ⟨kind, above, mem, isImport⟩ := isImported
        exact ⟨id, .imported (by simpa using kind) mem (by simpa using isImport),
          Option.some.inj takes⟩
      · simp at takes
  · rintro ⟨id, takes, rfl⟩
    exact text_mem_taken_of_takesName tree takes disambiguate

/-- **The names that are taken when a literal claims its own**: those of the file and
those of the aliases before it.  Type parameters are not among these, which is the whole
point. -/
def IsTaken (earlier : List Finding) (name : String) : Prop :=
  name ∈ aliasNames earlier ∨ ∃ id, TakesName tree id ∧ tree.text id = name

/-- **Each literal is reported under the names that are taken by then.**  The position
of a finding tells which aliases came before it. -/
theorem exists_getElem?_findingsFor {slots : List TypeSlot} {names : NameScope}
    (on : names.disambiguate = true) {i : Nat} {slot : TypeSlot} {literal : Nat}
    (h : (offences tree slots)[i]? = some (slot, literal)) :
    ∃ found : NameScope, found.disambiguate = true ∧
      (findingsFor tree names slots)[i]? = some (reportLiteral tree found slot literal).1 ∧
      ∀ name, name ∈ found.taken ↔
        name ∈ aliasNames ((findingsFor tree names slots).take i) ∨ name ∈ names.taken := by
  induction slots generalizing names i with
  | nil => simp [offences] at h
  | cons first rest ih =>
      rw [findingsFor]
      cases hliteral : offendingLiteral? tree first with
      | none =>
          simp only [offences, List.filterMap_cons, hliteral, Option.map_none] at h
          exact ih on h
      | some there =>
          simp only [offences, List.filterMap_cons, hliteral, Option.map_some] at h
          dsimp only
          cases i with
          | zero =>
              obtain ⟨rfl, rfl⟩ := Prod.mk.inj (Option.some.inj h)
              exact ⟨names, on, rfl, by simp [aliasNames]⟩
          | succ i =>
              rw [List.getElem?_cons_succ] at h ⊢
              rw [List.take_succ_cons]
              -- the first finding adds its alias to the names, if it has one
              rcases reportLiteral_claims tree on first there with ⟨withheld, same⟩ |
                ⟨fixable, _, taken⟩
              · obtain ⟨found, still, here, taken⟩ := ih on h
                rw [same]
                refine ⟨found, still, here, fun name => ?_⟩
                rw [taken]
                simp [aliasNames, withheld]
              · rw [taken]
                have on' : { names with taken :=
                    (reportLiteral tree names first there).1.aliasName :: names.taken }.disambiguate =
                      true := on
                obtain ⟨found, still, here, more⟩ := ih on' h
                refine ⟨found, still, here, fun name => ?_⟩
                rw [more]
                simp only [aliasNames, List.filter_cons_of_pos fixable, List.map_cons,
                  List.mem_cons]
                tauto

/-- A literal that is hoisted claims the first free form of its name.  It leaves only
the question which names are taken. -/
theorem reportLiteral_aliasName {names : NameScope} (on : names.disambiguate = true)
    {slot : TypeSlot} {literal : Nat}
    (fixable : (reportLiteral tree names slot literal).1.isFixable = true) :
    (reportLiteral tree names slot literal).1.aliasName =
      NameScope.freeName names.taken (deriveName tree slot) := by
  revert fixable
  rw [reportLiteral]
  cases hoistAnchor tree slot.node literal with
  | ok anchor =>
      dsimp only
      rw [NameScope.claim_of_on on]
      exact fun _ => rfl
  | error reason =>
      intro fixable
      exact absurd fixable (by simp [Finding.isFixable, Finding.fix?, Except.toOption])

/-! ## Type parameters around a literal -/

/-- **A type parameter that is in scope at a literal**: one of a node around it.  Those
of the anchor and beyond count as well, since the name is read in the old place of the
literal. -/
def IsTypeParameterAround (literal : Nat) (name : String) : Prop :=
  ∃ scope ∈ tree.ancestors literal, DeclaresTypeParameter tree scope name

/-- **No alias has the name of a type parameter around its literal.**  An alias that has
such a name is hidden by the type parameter. -/
def ClearOfTypeParameters : Prop :=
  ∀ literal finding, (literal, finding) ∈ (offendingLiterals tree).zip (lint tree true) →
    finding.isFixable = true → ¬ IsTypeParameterAround tree literal finding.aliasName

/-- The findings and their literals are met in the same order.  It goes from pairs to
positions. -/
theorem mem_zip_iff {disambiguate : Bool} {literal : Nat} {finding : Finding} :
    (literal, finding) ∈ (offendingLiterals tree).zip (lint tree disambiguate) ↔
      ∃ (i : Nat) (slot : TypeSlot), (offences tree (allSlots tree))[i]? = some (slot, literal) ∧
        (lint tree disambiguate)[i]? = some finding := by
  simp only [List.mem_iff_getElem?, List.getElem?_zip_eq_some, offendingLiterals,
    List.getElem?_map, Option.map_eq_some_iff, Prod.exists]
  constructor
  · rintro ⟨i, ⟨slot, _, here, rfl⟩, found⟩
    exact ⟨i, slot, here, found⟩
  · rintro ⟨i, slot, here, found⟩
    exact ⟨i, ⟨slot, literal, here, rfl⟩, found⟩

/-- **A literal that is hoisted gets the first free form of its name**, given the names
that are taken by then.  It is `exists_getElem?_findingsFor` from the names of the file
on. -/
theorem exists_getElem?_lint {i : Nat} {slot : TypeSlot} {literal : Nat}
    (h : (offences tree (allSlots tree))[i]? = some (slot, literal)) :
    ∃ finding, (lint tree true)[i]? = some finding ∧
      (finding.isFixable = true →
        NameScope.IsFirstFree (IsTaken tree ((lint tree true).take i)) (deriveName tree slot)
          finding.aliasName) := by
  have on : (NameScope.ofTree tree true).disambiguate = true := rfl
  obtain ⟨names, still, here, taken⟩ := exists_getElem?_findingsFor tree on h
  refine ⟨_, here, fun fixable => ?_⟩
  rw [reportLiteral_aliasName tree still fixable]
  refine (NameScope.isFirstFree_freeName _ _).congr fun name => ?_
  rw [taken, mem_taken_iff, IsTaken, lint]

/-- **An alias meets a type parameter around its literal exactly when that is the first free name**:
the names of the file and of the aliases before it are passed over, type parameters are not. -/
theorem clearOfTypeParameters_iff (source : String) (raw : RawTree) (hasErrors : Bool) :
    ClearOfTypeParameters (.ofRaw source raw hasErrors) ↔
      ∀ (i : Nat) (slot : TypeSlot) (literal anchor : Nat),
        (offences (.ofRaw source raw hasErrors) (allSlots (.ofRaw source raw hasErrors)))[i]? =
          some (slot, literal) →
        HoistsTo (.ofRaw source raw hasErrors) literal anchor →
        ¬ LosesTypeParameter (.ofRaw source raw hasErrors) literal anchor →
        ∀ name, IsTypeParameterAround (.ofRaw source raw hasErrors) literal name →
          ¬ NameScope.IsFirstFree
            (IsTaken (.ofRaw source raw hasErrors)
              ((lint (.ofRaw source raw hasErrors) true).take i))
            (deriveName (.ofRaw source raw hasErrors) slot) name := by
  have linked := linked_ofRaw source raw hasErrors
  have ordered := inOrder_ofRaw source raw hasErrors
  constructor
  · intro clear i slot literal anchor here hoists kept name around first
    obtain ⟨finding, found, free⟩ := exists_getElem?_lint _ here
    have mem := (mem_zip_iff _).mpr ⟨i, slot, here, found⟩
    have fixable := ((reports_of_mem_zip linked mem).isFixable_iff ordered).mpr
      ⟨anchor, hoists, kept⟩
    obtain rfl := (free fixable).unique first
    exact clear literal finding mem fixable around
  · intro clear literal finding mem fixable around
    obtain ⟨anchor, hoists, kept⟩ := ((reports_of_mem_zip linked mem).isFixable_iff ordered).mp fixable
    obtain ⟨i, slot, here, found⟩ := (mem_zip_iff _).mp mem
    obtain ⟨finding', found', free⟩ := exists_getElem?_lint _ here
    obtain rfl : finding = finding' := Option.some.inj (found.symm.trans found')
    exact clear i slot literal anchor here hoists kept _ around (free fixable)

namespace Specimen

/-- A function with a type parameter that has the name of the alias for its parameter. -/
def genericSource : String := "function f<CfgType>(cfg: \x7b\n  a: string;\n\x7d) \x7b\x7d\n"

/-- What the parser says about `genericSource`. -/
def genericRaw : RawTree :=
  branch "program" none 0 46 [
    branch "function_declaration" none 0 45 [
      token "function" none 0 8,
      branch "identifier" (some "name") 9 10 [],
      branch "type_parameters" (some "type_parameters") 10 19 [
        token "<" none 10 11,
        branch "type_parameter" none 11 18 [branch "type_identifier" (some "name") 11 18 []],
        token ">" none 18 19],
      branch "formal_parameters" (some "parameters") 19 42 [
        token "(" none 19 20,
        branch "required_parameter" none 20 41 [
          branch "identifier" (some "pattern") 20 23 [],
          branch "type_annotation" (some "type") 23 41 [
            token ":" none 23 24,
            branch "object_type" none 25 41 [
              token "\x7b" none 25 26,
              branch "property_signature" none 29 38 [
                branch "property_identifier" (some "name") 29 30 [],
                branch "type_annotation" (some "type") 30 38 [
                  token ":" none 30 31,
                  branch "predefined_type" none 32 38 [token "string" none 32 38]]],
              token ";" none 38 39,
              token "\x7d" none 40 41]]],
        token ")" none 41 42],
      branch "statement_block" (some "body") 43 45 [
        token "\x7b" none 43 44,
        token "\x7d" none 44 45]]]

end Specimen

/-- **An alias can have the name of a type parameter around its literal**, which then stands for the
type parameter there. -/
theorem alias_hides_typeParameter :
    ¬ ClearOfTypeParameters (.ofRaw Specimen.genericSource Specimen.genericRaw false) := by
  intro clear
  have offends : Offends (.ofRaw Specimen.genericSource Specimen.genericRaw false) 10 :=
    (mem_offendingLiterals_iff _).mp (by decide +kernel)
  obtain ⟨finding, mem⟩ := exists_mem_zip_of_offends (linked_ofRaw _ _ _) true offends
  have listed := (List.of_mem_zip mem).2
  have fixable : finding.isFixable = true := by
    have all : ∀ other ∈ lint (.ofRaw Specimen.genericSource Specimen.genericRaw false) true,
        other.isFixable = true := by decide +kernel
    exact all finding listed
  have name : finding.aliasName = "CfgType" := by
    have all : ∀ other ∈ lint (.ofRaw Specimen.genericSource Specimen.genericRaw false) true,
        other.aliasName = "CfgType" := by decide +kernel
    exact all finding listed
  refine clear 10 finding mem fixable ?_
  rw [name]
  exact ⟨1, by decide +kernel, (mem_typeParameterNames_iff _).mp (by decide +kernel)⟩

end AliasHoist
