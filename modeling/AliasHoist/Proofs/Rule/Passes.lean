import AliasHoist.Proofs.Rewrite.Output
import AliasHoist.Proofs.Rule.Scoping

/-!
# What one pass does to a text

A pass collects the fixes of a tree, selects those that do not collide, and applies their edits.
This module says what the text is afterwards in terms of the tree: which literals were hoisted,
where their aliases stand, and what is left of everything else.

## Main Definitions

* `Hoist`: a literal, the anchor in front of which it is declared, and its name;
* `Hoist.declaration`: what is written in front of the anchor;
* `hoistedAt`, `rewritten`: what stands in place of one offset, and of all of them;
* `IsIndentation`: nothing but blanks stands between the start of a line and an offset.

## Main Statements

* `exists_hoists`: what is selected are the fixes of literals that offend;
* `bytes_of_pass`: the text after a pass, offset by offset;
* `line_of_rewritten`: what follows the first declaration at an offset starts a line and keeps the
  indentation of the anchor;
* `pass_writes_hoists`: all of it, for a pass over any tree that fits its source.

### What is load-bearing

The text of a literal is read off the source, so a declaration does not depend on what is written
around it; and the indentation at an anchor is the same for all that are declared there, since it is
a matter of the offset alone.
-/

namespace AliasHoist

/-- **A literal that is hoisted**: the anchor that it is declared in front of, and its
name.  It is what a fix says in terms of the tree. -/
structure Hoist where
  literal : Nat
  anchor : Nat
  name : String
  deriving DecidableEq, Repr

namespace Hoist

variable (tree : SyntaxTree) (offset : Nat) (hoist : Hoist)

/-- The edits of a hoist. -/
def fix : Fix := hoistFix tree hoist.literal hoist.name hoist.anchor

/-- Whether the alias is declared at an offset. -/
def isDeclaredAt : Bool := offset == (tree.span hoist.anchor).startByte

/-- Whether the literal begins at an offset. -/
def isNamedAt : Bool := offset == (tree.span hoist.literal).startByte

/-- Whether the literal covers the byte at an offset. -/
def removes : Bool :=
  (tree.span hoist.literal).startByte ≤ offset && offset < (tree.span hoist.literal).stopByte

/-- **What is written in front of the anchor**: the alias with the literal as it stands
in the source, a blank line, and the indentation of the anchor.  It is written in bytes,
as offsets count bytes. -/
def declaration : List UInt8 :=
  Text.bytes ("type " ++ hoist.name ++ " = ").toList ++
    Text.between (tree.span hoist.literal).startByte (tree.span hoist.literal).stopByte
      tree.source.toUTF8.data.toList ++
    Text.bytes (";\n\n" ++ tree.leadingIndent hoist.anchor).toList

end Hoist

section Definitions

variable (tree : SyntaxTree) (hoists : List Hoist) (offset : Nat)

/-- The hoists that are declared at an offset, in their order.  Several literals can
have the same anchor, and several anchors can begin at one offset. -/
def declaredAt : List Hoist := hoists.filter (Hoist.isDeclaredAt tree offset)

/-- What is left at an offset: the names of the literals that begin there, and the byte
of the source unless it belongs to a literal that is hoisted.  A literal that begins
where another ends leaves both its name and nothing of the bytes. -/
def leftAt : List UInt8 :=
  ((hoists.filter (Hoist.isNamedAt tree offset)).flatMap fun hoist =>
      Text.bytes hoist.name.toList) ++
    if hoists.any (Hoist.removes tree offset) then []
    else tree.source.toUTF8.data.toList[offset]?.toList

/-- **What stands in place of one offset**: the declarations of the aliases there and
what is left.  Declarations come first, so an alias stands in front of the statement
that uses it. -/
def hoistedAt : List UInt8 :=
  (declaredAt tree hoists offset).flatMap (Hoist.declaration tree) ++ leftAt tree hoists offset

/-- What stands in place of the offsets of a source, from one to its end.  The offset
behind the last byte is included, where a declaration could stand. -/
def rewrittenFrom : List UInt8 :=
  (List.range' offset (tree.source.toUTF8.data.toList.length + 1 - offset)).flatMap
    (hoistedAt tree hoists)

/-- **What stands in place of a source**, from its first offset to its end. -/
def rewritten : List UInt8 := rewrittenFrom tree hoists 0

end Definitions

/-- **The indentation at an offset**: the blanks between the start of a line and the
offset, where there is nothing else.  A text in front of a statement on the same line
has no indentation to be kept. -/
structure IsIndentation (source : List Char) (offset : Nat) (blanks : List Char) : Prop where
  exists_line : ∃ front rest, source = front ++ (blanks ++ rest) ∧
    Text.byteLength front + Text.byteLength blanks = offset ∧
    (front = [] ∨ front.getLast? = some '\n')
  blank : ∀ c ∈ blanks, c = ' ' ∨ c = '\t'

variable {tree : SyntaxTree}

/-! ## Indentation -/

/-- **The indentation that a declaration repeats is the one at its anchor.**  Where
something else precedes the anchor, the program repeats no indentation. -/
theorem leadingIndent_eq {id : Nat} {blanks : List Char}
    (h : IsIndentation tree.source.toList (tree.span id).startByte blanks) :
    tree.leadingIndent id = String.ofList blanks := by
  obtain ⟨front, rest, parts, length, line⟩ := h.exists_line
  have before : Text.takeBytes (tree.span id).startByte tree.source.toList = front ++ blanks := by
    rw [parts, ← length, ← Text.byteLength_append, ← List.append_assoc, Text.takeBytes_append]
  -- backwards from the offset stand the blanks, and then the end of the line before or nothing
  have inLine : ∀ c ∈ blanks.reverse, (c != '\n') = true := by
    intro c mem
    rcases h.blank c (List.mem_reverse.mp mem) with rfl | rfl <;> decide
  have lineStart : front.reverse.takeWhile (· != '\n') = [] := by
    rcases line with rfl | last
    · rfl
    · obtain ⟨rest, rfl⟩ := List.getLast?_eq_some_iff.mp last
      simp
  have lineOf : ((front ++ blanks).reverse.takeWhile (· != '\n')).reverse = blanks := by
    rw [List.reverse_append, List.takeWhile_append_of_pos inLine, lineStart, List.append_nil,
      List.reverse_reverse]
  have isBlank : (blanks.all fun c => c == ' ' || c == '\t') = true := by
    simpa [List.all_eq_true] using h.blank
  rw [SyntaxTree.leadingIndent, before]
  simp only [lineOf]
  rw [if_pos isBlank]

/-! ## The edits of hoists -/

namespace Hoist

variable (spanned : WellSpanned tree.source.toList tree.nodes)
include spanned

/-- **The text of a node is its part of the source.**  The literal is thus copied byte
by byte, comments and line breaks included. -/
theorem bytes_text {id : Nat} (lt : id < tree.size) :
    Text.bytes (tree.text id).toList =
      Text.between (tree.span id).startByte (tree.span id).stopByte
        tree.source.toUTF8.data.toList := by
  have range := spanned.span_isRange lt
  simp only [Text.isRange, Bool.and_eq_true, decide_eq_true_eq] at range
  obtain ⟨⟨le, hstart⟩, hstop⟩ := range
  rw [SyntaxTree.text, SyntaxTree.slice?, Text.slice?_eq_some hstart hstop le, Option.getD_some,
    String.toList_ofList, Text.bytes_sliceBytes hstart hstop le, Text.toUTF8_eq_bytes]

theorem bytes_declaration {hoist : Hoist} (lt : hoist.literal < tree.size) :
    (hoist.fix tree).declaration.bytes = hoist.declaration tree := by
  simp only [fix, hoistFix, Edit.bytes, Edit.text, aliasDeclaration, declaration,
    String.toList_append, Text.bytes_append, bytes_text spanned lt, List.append_assoc]
  rfl

omit spanned in
/-- The edits of hoists: for each an insertion, and then a replacement.  The order is
that of the fix; the sweep sorts them afterwards. -/
theorem edits_cons (hoist : Hoist) (rest : List Hoist) :
    ((hoist :: rest).map (fix tree)).flatMap Fix.edits =
      (hoist.fix tree).declaration :: (hoist.fix tree).reference ::
        (rest.map (fix tree)).flatMap Fix.edits := rfl

variable {hoists : List Hoist} (inTree : ∀ hoist ∈ hoists, hoist.literal < tree.size)
include inTree

theorem insertedAt_edits (offset : Nat) :
    insertedAt ((hoists.map (fix tree)).flatMap Fix.edits) offset =
      (declaredAt tree hoists offset).flatMap (declaration tree) := by
  induction hoists with
  | nil => rfl
  | cons hoist rest ih =>
      obtain ⟨lt, inTree⟩ := List.forall_mem_cons.mp inTree
      rw [declaredAt] at ih ⊢
      rw [edits_cons, insertedAt_cons, insertedAt_cons, ih inTree, bytes_declaration spanned lt,
        List.filter_cons]
      -- of the two edits only the declaration is an insertion
      by_cases here : offset = (tree.span hoist.anchor).startByte
      · simp [isDeclaredAt, fix, hoistFix, Edit.start, Edit.rank, here]
      · simp [isDeclaredAt, fix, hoistFix, Edit.start, Edit.rank, here]

omit spanned inTree in
theorem replacedFrom_edits (offset : Nat) :
    replacedFrom ((hoists.map (fix tree)).flatMap Fix.edits) offset =
      (hoists.filter (isNamedAt tree offset)).flatMap fun hoist =>
        Text.bytes hoist.name.toList := by
  induction hoists with
  | nil => rfl
  | cons hoist rest ih =>
      rw [edits_cons, replacedFrom_cons, replacedFrom_cons, ih, List.filter_cons]
      by_cases here : offset = (tree.span hoist.literal).startByte
      · simp [isNamedAt, fix, hoistFix, Edit.start, Edit.rank, Edit.bytes, Edit.text, here]
      · simp [isNamedAt, fix, hoistFix, Edit.start, Edit.rank, here]

omit spanned inTree in
theorem any_covers_edits (offset : Nat) :
    ((hoists.map (fix tree)).flatMap Fix.edits).any (Edit.covers offset) =
      hoists.any (removes tree offset) := by
  induction hoists with
  | nil => rfl
  | cons hoist rest ih =>
      have insertion : (hoist.fix tree).declaration.covers offset = false := by
        rw [Bool.eq_false_iff]
        intro inside
        have := Edit.covers_iff.mp inside
        simp only [fix, hoistFix, Edit.start, Edit.stop] at this
        omega
      rw [edits_cons, List.any_cons, List.any_cons, insertion, ih, Bool.false_or, List.any_cons]
      rfl

/-- **What the edits of hoists write in place of an offset.**  It turns a statement
about edits into one about hoists, offset by offset. -/
theorem writtenAt_edits (offset : Nat) :
    writtenAt tree.source.toUTF8.data.toList ((hoists.map (fix tree)).flatMap Fix.edits) offset =
      hoistedAt tree hoists offset := by
  rw [writtenAt, keptAt, insertedAt_edits spanned inTree, replacedFrom_edits, any_covers_edits,
    hoistedAt, leftAt, List.append_assoc]

end Hoist

/-! ## The hoists of a pass -/

/-- Every fix of a round of linting hoists a literal that offends.  The fix is
determined by it, so nothing else has to be known of fixes. -/
theorem exists_hoist_of_mem_fixesOf (linked : Linked tree.nodes) {disambiguate : Bool} {fix : Fix}
    (mem : fix ∈ fixesOf (lint tree disambiguate)) :
    ∃ hoist : Hoist, fix = hoist.fix tree ∧ Offends tree hoist.literal ∧
      HoistsTo tree hoist.literal hoist.anchor := by
  obtain ⟨finding, hfinding, hfix⟩ := List.mem_filterMap.mp mem
  obtain ⟨slot, literal, names, offence, rfl⟩ := exists_offence_of_mem_findingsFor tree hfinding
  obtain ⟨anchor, hanchor, rfl⟩ :=
    (reportLiteral_fix_eq_ok_iff tree).mp (Finding.fix?_eq_some_iff.mp hfix)
  have hliteral := ((mem_offences_iff tree).mp offence).2
  refine ⟨⟨literal, anchor, _⟩, rfl, ?_, slot.node, parent?_of_offendingLiteral? linked hliteral,
    ((hoistAnchor_eq_ok_iff tree).mp hanchor).1⟩
  exact (mem_offendingLiterals_iff tree).mp (List.mem_map.mpr ⟨(slot, literal), offence, rfl⟩)

/-- **What is selected are the fixes of literals that offend**, each with its anchor.
In the order in which they were selected. -/
theorem exists_hoists (linked : Linked tree.nodes) {disambiguate : Bool} {fixes : List Fix}
    (sub : fixes ⊆ fixesOf (lint tree disambiguate)) :
    ∃ hoists : List Hoist, fixes = hoists.map (Hoist.fix tree) ∧
      ∀ hoist ∈ hoists, Offends tree hoist.literal ∧ HoistsTo tree hoist.literal hoist.anchor := by
  induction fixes with
  | nil => exact ⟨[], rfl, by simp⟩
  | cons fix rest ih =>
      obtain ⟨mem, subRest⟩ := List.cons_subset.mp sub
      obtain ⟨hoist, rfl, offends, hoistsTo⟩ := exists_hoist_of_mem_fixesOf linked mem
      obtain ⟨hoists, rfl, others⟩ := ih subRest
      exact ⟨hoist :: hoists, rfl, List.forall_mem_cons.mpr ⟨⟨offends, hoistsTo⟩, others⟩⟩

/-- A literal that offends is a node of the tree. -/
theorem Offends.lt_size {literal : Nat} (h : Offends tree literal) : literal < tree.size :=
  lt_size_of_kind tree (by rw [h.1]; decide)

/-- **The text after a pass, offset by offset.**  It is the output of `applyEdits` read
through `writtenAt_edits`. -/
theorem bytes_of_pass (spanned : WellSpanned tree.source.toList tree.nodes) {hoists : List Hoist}
    (inTree : ∀ hoist ∈ hoists, hoist.literal < tree.size) {output : String}
    (applied : applyEdits tree.source ((hoists.map (Hoist.fix tree)).flatMap Fix.edits)
      = .ok output) :
    output.toUTF8.data.toList = rewritten tree hoists := by
  rw [Text.toUTF8_eq_bytes, bytes_of_applyEdits applied, written, ← Text.toUTF8_eq_bytes, rewritten,
    rewrittenFrom, List.range_eq_range', Nat.sub_zero]
  exact List.flatMap_congr fun offset _ => Hoist.writtenAt_edits spanned inTree offset

/-! ## Lines -/

/-- An offset cuts the text after a pass in front of what stands in its place.  What
comes after is the same expression from the next offset on. -/
theorem rewritten_eq_append {hoists : List Hoist} {offset : Nat}
    (le : offset ≤ tree.source.toUTF8.data.toList.length) :
    ∃ front, rewritten tree hoists =
      front ++ (hoistedAt tree hoists offset ++ rewrittenFrom tree hoists (offset + 1)) := by
  have split : List.range' 0 (tree.source.toUTF8.data.toList.length + 1 - 0) =
      List.range' 0 offset ++
        offset :: List.range' (offset + 1)
          (tree.source.toUTF8.data.toList.length + 1 - (offset + 1)) := by
    have joined := List.range'_append_1 (s := 0) (m := offset)
      (n := tree.source.toUTF8.data.toList.length + 1 - (offset + 1) + 1)
    rw [Nat.zero_add, List.range'_succ] at joined
    rw [joined]
    congr 1
    omega
  refine ⟨(List.range' 0 offset).flatMap (hoistedAt tree hoists), ?_⟩
  rw [rewritten, rewrittenFrom, split, List.flatMap_append, List.flatMap_cons, rewrittenFrom]

/-- A declaration ends with the start of a line and the indentation of the offset it
stands at.  The blank line before it belongs to the declaration. -/
theorem exists_declaration_eq {hoists : List Hoist} {hoist : Hoist} {offset : Nat}
    {blanks : List Char} (mem : hoist ∈ declaredAt tree hoists offset)
    (indented : IsIndentation tree.source.toList offset blanks) :
    ∃ front, hoist.declaration tree = front ++ Text.bytes ('\n' :: blanks) := by
  obtain ⟨_, here⟩ := List.mem_filter.mp mem
  obtain rfl : offset = (tree.span hoist.anchor).startByte := by
    simpa [Hoist.isDeclaredAt] using here
  rw [Hoist.declaration, leadingIndent_eq indented]
  exact ⟨Text.bytes ("type " ++ hoist.name ++ " = ").toList ++
    Text.between (tree.span hoist.literal).startByte (tree.span hoist.literal).stopByte
      tree.source.toUTF8.data.toList ++ Text.bytes [';', '\n'], by
    simp [String.toList_append]⟩

/-- **What follows the first declaration at an offset starts a line and keeps the
indentation there**, the other declarations and the anchor itself alike.  The first
declaration itself stands where the anchor stood, and so behind the same blanks. -/
theorem line_of_rewritten {hoists first next : List Hoist} {offset : Nat} {blanks : List Char}
    (here : declaredAt tree hoists offset = first ++ next) (nonempty : first ≠ [])
    (indented : IsIndentation tree.source.toList offset blanks) :
    ∃ front, rewritten tree hoists = front ++ Text.bytes ('\n' :: blanks) ++
      (next.flatMap (Hoist.declaration tree) ++ leftAt tree hoists offset ++
        rewrittenFrom tree hoists (offset + 1)) := by
  have le : offset ≤ tree.source.toUTF8.data.toList.length := by
    obtain ⟨before, rest, parts, length, _⟩ := indented.exists_line
    rw [Text.toUTF8_eq_bytes, Text.length_bytes, parts, Text.byteLength_append,
      Text.byteLength_append]
    omega
  obtain ⟨front, split⟩ : ∃ front, rewritten tree hoists = front ++
      (hoistedAt tree hoists offset ++ rewrittenFrom tree hoists (offset + 1)) :=
    rewritten_eq_append le
  obtain ⟨earlier, last, rfl⟩ := List.eq_nil_or_concat first |>.resolve_left nonempty
  have mem : last ∈ declaredAt tree hoists offset := by
    rw [here]
    simp
  obtain ⟨declared, ends⟩ := exists_declaration_eq mem indented
  refine ⟨front ++ earlier.flatMap (Hoist.declaration tree) ++ declared, ?_⟩
  rw [split, hoistedAt, here]
  simp [ends, List.append_assoc]

/-! ## The main statement -/

/-- **What one pass does to a text.**  For a tree lowered from a raw tree that fits its source, what
is selected from a round of linting are the fixes of literals that offend, in the order of the
report, and their edits can be applied.  In the text after the pass, the aliases that are declared
in front of anchors at an offset stand there, in that order, each as the text of its literal, a
blank line and the indentation of the anchor; the literals that begin there have become their names;
and every byte outside of them is kept.  So where nothing but blanks precedes an offset on its line,
everything that follows the first declaration there starts a line with just these blanks. -/
theorem pass_writes_hoists {source : String} {raw : RawTree} {hasErrors : Bool} {tree : SyntaxTree}
    (lowered : tree = .ofRaw source raw hasErrors) (fits : raw.fits source.toList = true)
    (disambiguate : Bool) :
    ∃ (hoists : List Hoist) (output : String),
      (selectFixes (fixesOf (lint tree disambiguate))).accepted = hoists.map (Hoist.fix tree) ∧
      (hoists.map (Hoist.fix tree)).Sublist (fixesOf (lint tree disambiguate)) ∧
      (∀ hoist ∈ hoists,
        Offends tree hoist.literal ∧ HoistsTo tree hoist.literal hoist.anchor) ∧
      applyEdits source (selectFixes (fixesOf (lint tree disambiguate))).edits = .ok output ∧
      output.toUTF8.data.toList = rewritten tree hoists ∧
      ∀ (offset : Nat) (first next : List Hoist) (blanks : List Char),
        declaredAt tree hoists offset = first ++ next → first ≠ [] →
        IsIndentation source.toList offset blanks →
          ∃ front, output.toUTF8.data.toList = front ++ Text.bytes ('\n' :: blanks) ++
            (next.flatMap (Hoist.declaration tree) ++ leftAt tree hoists offset ++
              rewrittenFrom tree hoists (offset + 1)) := by
  subst lowered
  have reported := accepted_sublist [] (fixesOf (lint (.ofRaw source raw hasErrors) disambiguate))
  obtain ⟨hoists, accepted, each⟩ :=
    exists_hoists (linked_ofRaw source raw hasErrors) reported.subset
  obtain ⟨output, applied⟩ := exists_applyEdits_lint fits hasErrors disambiguate
  have bytes : output.toUTF8.data.toList = rewritten (.ofRaw source raw hasErrors) hoists := by
    refine bytes_of_pass (wellSpanned_ofRaw fits hasErrors)
      (fun hoist mem => (each hoist mem).1.lt_size) ?_
    rw [← accepted]
    exact applied
  refine ⟨hoists, output, accepted, accepted ▸ reported, each, applied, bytes, ?_⟩
  intro offset first next blanks here nonempty indented
  rw [bytes]
  exact line_of_rewritten here nonempty indented

namespace Specimen

/-- Two literals that are hoisted in front of one indented statement. -/
def sharedSource : String :=
  "function f() \x7b\n  const h = (a: \x7b\n    x: 1;\n  \x7d): \x7b\n" ++
    "    y: 2;\n  \x7d => a;\n\x7d\n"

/-- What the parser says about `sharedSource`. -/
def sharedRaw : RawTree :=
  branch "program" none 0 73 [
    branch "function_declaration" none 0 72 [
      token "function" none 0 8,
      branch "identifier" (some "name") 9 10 [],
      branch "formal_parameters" (some "parameters") 10 12 [
        token "(" none 10 11,
        token ")" none 11 12],
      branch "statement_block" (some "body") 13 72 [
        token "\x7b" none 13 14,
        branch "lexical_declaration" none 17 70 [
          token "const" (some "kind") 17 22,
          branch "variable_declarator" none 23 69 [
            branch "identifier" (some "name") 23 24 [],
            token "=" none 25 26,
            branch "arrow_function" (some "value") 27 69 [
              branch "formal_parameters" (some "parameters") 27 47 [
                token "(" none 27 28,
                branch "required_parameter" none 28 46 [
                  branch "identifier" (some "pattern") 28 29 [],
                  branch "type_annotation" (some "type") 29 46 [
                    token ":" none 29 30,
                    branch "object_type" none 31 46 [
                      token "\x7b" none 31 32,
                      branch "property_signature" none 37 41 [
                        branch "property_identifier" (some "name") 37 38 [],
                        branch "type_annotation" (some "type") 38 41 [
                          token ":" none 38 39,
                          branch "literal_type" none 40 41 [
                            branch "number" none 40 41 []]]],
                      token ";" none 41 42,
                      token "\x7d" none 45 46]]],
                token ")" none 46 47],
              branch "type_annotation" (some "return_type") 47 64 [
                token ":" none 47 48,
                branch "object_type" none 49 64 [
                  token "\x7b" none 49 50,
                  branch "property_signature" none 55 59 [
                    branch "property_identifier" (some "name") 55 56 [],
                    branch "type_annotation" (some "type") 56 59 [
                      token ":" none 56 57,
                      branch "literal_type" none 58 59 [
                        branch "number" none 58 59 []]]],
                  token ";" none 59 60,
                  token "\x7d" none 63 64]],
              token "=>" none 65 67,
              branch "identifier" (some "body") 68 69 []]],
          token ";" none 69 70],
        token "\x7d" none 71 72]]]

theorem isIndentation_shared : IsIndentation sharedSource.toList 17 [' ', ' '] where
  exists_line := ⟨sharedSource.toList.take 15, sharedSource.toList.drop 17, by decide +kernel,
    by decide +kernel, Or.inr (by decide +kernel)⟩
  blank := by simp

end Specimen

/-- Two aliases are declared at offset 17, and the second starts a line with two blanks. -/
theorem pass_writes_hoists_specimen :
    Specimen.sharedRaw.fits Specimen.sharedSource.toList = true ∧
      IsIndentation Specimen.sharedSource.toList 17 [' ', ' '] ∧
      ∃ (hoists : List Hoist) (output : String), hoists.length = 2 ∧
        applyEdits Specimen.sharedSource (selectFixes (fixesOf (lint
          (.ofRaw Specimen.sharedSource Specimen.sharedRaw false) true))).edits = .ok output ∧
        output.toUTF8.data.toList =
          rewritten (.ofRaw Specimen.sharedSource Specimen.sharedRaw false) hoists ∧
        ∀ first next : List Hoist,
          declaredAt (.ofRaw Specimen.sharedSource Specimen.sharedRaw false) hoists 17
            = first ++ next → first ≠ [] →
            ∃ front, output.toUTF8.data.toList = front ++ Text.bytes ['\n', ' ', ' '] ++
              (next.flatMap (Hoist.declaration
                  (.ofRaw Specimen.sharedSource Specimen.sharedRaw false)) ++
                leftAt (.ofRaw Specimen.sharedSource Specimen.sharedRaw false) hoists 17 ++
                rewrittenFrom (.ofRaw Specimen.sharedSource Specimen.sharedRaw false) hoists
                  18) := by
  have fits : Specimen.sharedRaw.fits Specimen.sharedSource.toList = true := by decide +kernel
  obtain ⟨hoists, output, accepted, _, _, applied, bytes, lines⟩ := pass_writes_hoists
    (rfl : SyntaxTree.ofRaw Specimen.sharedSource Specimen.sharedRaw false = .ofRaw _ _ _) fits true
  have both : (selectFixes (fixesOf (lint
      (.ofRaw Specimen.sharedSource Specimen.sharedRaw false) true))).accepted.length = 2 := by
    decide +kernel
  rw [accepted, List.length_map] at both
  refine ⟨fits, Specimen.isIndentation_shared, hoists, output, both, applied, bytes, ?_⟩
  intro first next here nonempty
  exact lines 17 first next _ here nonempty Specimen.isIndentation_shared

end AliasHoist
