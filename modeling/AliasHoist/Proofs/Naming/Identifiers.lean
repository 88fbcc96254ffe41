import AliasHoist.Proofs.Rule.Detection

/-!
# Alias names are identifiers

A name that is suggested for a slot is checked once and gives way to the fallback when it is no
identifier.  What is claimed after that, with a number where the name is taken, is not checked again.
This module says that it need not be, whatever texts the tree holds.

## Main Definitions

* `EndsAsAlias`: the two endings that alias names have before they get a number;
* `IsNamedFor`: what a finding says about the name of its literal.

## Main Statements

* `isValidIdentifier_numbered`: a number at its end leaves an identifier one;
* `isValidIdentifier_deriveName`, `endsAsAlias_deriveName`: the name that is derived for a slot;
* `findings_name_identifiers`: all findings, one by one, have identifiers for names.
-/

namespace AliasHoist

open Text

/-! ## Identifiers -/

theorem isValidIdentifier_iff {name : String} :
    isValidIdentifier name = true ↔ ∃ first rest, name.toList = first :: rest ∧
      startsIdentifier first = true ∧ ∀ c ∈ rest, continuesIdentifier c = true := by
  unfold isValidIdentifier
  cases name.toList with
  | nil => simp
  | cons first rest => simp

/-- **An identifier may go on** with anything that may stand in one.  Numbers and
endings are of this kind. -/
theorem isValidIdentifier_append {name suffix : String} (valid : isValidIdentifier name = true)
    (continues : ∀ c ∈ suffix.toList, continuesIdentifier c = true) :
    isValidIdentifier (name ++ suffix) = true := by
  obtain ⟨first, rest, chars, starts, all⟩ := isValidIdentifier_iff.mp valid
  refine isValidIdentifier_iff.mpr ⟨first, rest ++ suffix.toList, ?_, starts, ?_⟩
  · rw [String.toList_append, chars, List.cons_append]
  · exact List.forall_mem_append.mpr ⟨all, continues⟩

/-- Digits may stand anywhere but at the start.  At the start they may not, so a number
is never put in front. -/
theorem continuesIdentifier_of_isDigit {c : Char} (digit : c.isDigit = true) :
    continuesIdentifier c = true := by
  have numeric : isNumeric c = true := by
    refine inRuns_eq_true_iff.mpr ⟨(0x30, 0x39), List.mem_cons_self, ?_⟩
    simpa [Char.isDigit, UInt32.le_iff_toNat_le] using digit
  simp [continuesIdentifier, numeric]

/-- **A number at its end leaves an identifier one.**  So resolving a clash needs no
further check. -/
theorem isValidIdentifier_numbered {base : String} (valid : isValidIdentifier base = true) (n : Nat) :
    isValidIdentifier (NameScope.numbered base n) = true := by
  refine isValidIdentifier_append valid fun c mem => ?_
  rw [Nat.toString_eq_ofList_toDigits, String.toList_ofList] at mem
  exact continuesIdentifier_of_isDigit (Nat.isDigit_of_mem_toDigits (by decide) (by decide) mem)

/-! ## Derived names -/

/-- **The endings of alias names**, numbers apart.  A derived name can have anything in
front of it. -/
def EndsAsAlias (name : String) : Prop := ∃ stem, name = stem ++ "Type" ∨ name = stem ++ "Props"

variable (tree : SyntaxTree)

/-- Whatever the role of a slot, the name it suggests ends as aliases do.  There is one
case for each role. -/
theorem endsAsAlias_of_suggestedName? {slot : TypeSlot} {name : String}
    (h : suggestedName? tree slot = some name) : EndsAsAlias name := by
  rw [suggestedName?] at h
  cases role : slot.role <;> simp only [role, Option.map_eq_some_iff, Option.some.injEq] at h
  case variableBinding | functionParameter | parameterProperty =>
    obtain ⟨text, -, rfl⟩ := h
    exact ⟨pascalCase text, .inl rfl⟩
  case destructuredObject =>
    subst h
    cases enclosingFunctionName? tree slot.owner with
    | none => exact ⟨"Props", .inl rfl⟩
    | some function => exact ⟨pascalCase function, .inr rfl⟩
  case destructuredArray =>
    subst h
    exact ⟨"Params", .inl rfl⟩
  case classProperty =>
    obtain ⟨text, -, rfl⟩ := h
    exact ⟨pascalCase (withoutPrivateMark text), .inl rfl⟩
  case functionReturn =>
    subst h
    generalize ((functionName? tree slot.owner).or _).map pascalCase = name
    have ending : "ReturnType" = "Return" ++ "Type" := rfl
    refine ⟨name.getD "Function" ++ "Return", .inl ?_⟩
    rw [ending, String.append_assoc]
  case unknown => simp at h

/-- A derived name is a valid suggestion or the fallback.  It is the one place where the
check of suggestions is opened. -/
theorem deriveName_cases (slot : TypeSlot) :
    (suggestedName? tree slot = some (deriveName tree slot) ∧
        isValidIdentifier (deriveName tree slot) = true) ∨
      deriveName tree slot = fallbackName := by
  unfold deriveName
  cases kept : (suggestedName? tree slot).filter isValidIdentifier with
  | none => exact .inr rfl
  | some name => exact .inl (Option.filter_eq_some_iff.mp kept)

/-- **A derived name is an identifier.**  Nothing is asked of the texts in the tree. -/
theorem isValidIdentifier_deriveName (slot : TypeSlot) :
    isValidIdentifier (deriveName tree slot) = true := by
  rcases deriveName_cases tree slot with ⟨-, valid⟩ | fallback
  · exact valid
  · rw [fallback]
    decide +kernel

/-- **A derived name ends as aliases do.**  The fallback does as well. -/
theorem endsAsAlias_deriveName (slot : TypeSlot) : EndsAsAlias (deriveName tree slot) := by
  rcases deriveName_cases tree slot with ⟨suggested, -⟩ | fallback
  · exact endsAsAlias_of_suggestedName? tree suggested
  · rw [fallback]
    exact ⟨"Extracted", .inl rfl⟩

/-! ## Names of findings -/

/-- A claim gives the name it asks for, or that name with a number from two upward.
Whether clashes are resolved is left open. -/
theorem NameScope.claim_cases (names : NameScope) (base : String) :
    (names.claim base).1 = base ∨ ∃ n, 2 ≤ n ∧ (names.claim base).1 = numbered base n := by
  rw [claim]
  split
  · dsimp only
    rw [freeName]
    split
    · exact .inr ⟨_, by rw [freeNumber]; omega, rfl⟩
    · exact .inl rfl
  · exact .inl rfl

/-- **What a finding says about the name of its literal.** -/
structure IsNamedFor (slot : TypeSlot) (literal : Nat) (finding : Finding) : Prop where
  valid : isValidIdentifier finding.aliasName = true
  /-- The name is the one derived for the slot, with a number at its end or without. -/
  numbered : finding.aliasName = deriveName tree slot ∨
    ∃ n, 2 ≤ n ∧ finding.aliasName = deriveName tree slot ++ toString n
  ends : EndsAsAlias (deriveName tree slot)
  /-- Both edits of a fix have this name: the declaration that goes in front of the anchor and the
  reference that takes the literal's place. -/
  used : ∀ fix, finding.fix = .ok fix → fix.aliasName = finding.aliasName ∧
    (∃ anchor, fix.declaration = .insert (tree.span anchor).startByte
      ("type " ++ finding.aliasName ++ " = " ++ tree.text literal ++ ";" ++ "\n\n" ++
        tree.leadingIndent anchor)) ∧
    fix.reference =
      .replace (tree.span literal).startByte (tree.span literal).stopByte finding.aliasName

/-- A report names its literal, whatever names are taken. -/
theorem isNamedFor_reportLiteral (names : NameScope) (slot : TypeSlot) (literal : Nat) :
    IsNamedFor tree slot literal (reportLiteral tree names slot literal).1 := by
  have valid := isValidIdentifier_deriveName tree slot
  have ends := endsAsAlias_deriveName tree slot
  rw [reportLiteral]
  cases hoistAnchor tree slot.node literal with
  | error reason => exact ⟨valid, .inl rfl, ends, fun fix withheld => by simp at withheld⟩
  | ok anchor =>
      refine ⟨?_, NameScope.claim_cases names _, ends, ?_⟩
      · dsimp only
        rcases NameScope.claim_cases names (deriveName tree slot) with same | ⟨n, -, numbered⟩
        · rw [same]
          exact valid
        · rw [numbered]
          exact isValidIdentifier_numbered valid n
      · intro fix hoisted
        obtain rfl := Except.ok.inj hoisted
        exact ⟨rfl, ⟨anchor, rfl⟩, rfl⟩

/-- **Every alias name is an identifier.**  In every tree, whatever texts it holds and whether names are
disambiguated or not, the findings are, one by one, those of the slots with an offending literal.  The
name of each is an identifier: the one derived for the slot, which ends in `Type` or `Props`, with
nothing behind it or a number from two upward.  A fix declares and uses that very name. -/
theorem findings_name_identifiers (disambiguate : Bool) :
    List.Forall₂ (fun offence finding => IsNamedFor tree offence.1 offence.2 finding)
      (offences tree (allSlots tree)) (lint tree disambiguate) := by
  refine (forall₂_findingsFor tree (.ofTree tree disambiguate) (allSlots tree)).imp ?_
  rintro ⟨slot, literal⟩ finding ⟨-, names, rfl⟩
  exact isNamedFor_reportLiteral tree names slot literal

end AliasHoist
