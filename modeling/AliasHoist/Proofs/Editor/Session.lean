import AliasHoist.Proofs.Editor.Runs
import AliasHoist.Proofs.Rule.Hoisting

/-!
# Sessions with an editor

An editor is opened on a source and then asked for fixes any number of times.  Some of the calls may
fail, and the session goes on with the editor that the failed call left.  This module says what can
be relied on after every call of every session.

## Main Definitions

* `FixCall`: the settings of one call;
* `Editor.session`: the runs of a sequence of calls;
* `Editor.Parsed`: the tree of an editor is the parse of its content;
* `Parser.LowersFitting`: a parser whose trees are lowered from raw trees that fit their sources.

## Main Statements

* `session_in_step`: content, dialect and tree stay in step, and a source with errors is left alone;
* `selected_edits_apply`: the edits that a pass selects can be applied, so that no call ever fails on
  them.

### What is load-bearing

A pass replaces content and tree together, and only after the new tree has been found free of
errors.  Everything here follows from that (`of_pass_eq_ok`) and from the induction along runs.
-/

namespace AliasHoist

/-- The settings of one call for fixes.  The limit and the setting for names may change
from call to call. -/
structure FixCall where
  disambiguate : Bool
  maxPasses : Nat
  deriving DecidableEq, Repr

namespace Editor

variable (parse : Parser)

/-- **The runs of a sequence of calls**, each from the editor that the one before it left. -/
def session (editor : Editor) : List FixCall → List FixRun
  | [] => []
  | call :: rest =>
      let run := editor.fixAll parse call.disambiguate call.maxPasses
      run :: session run.editor rest

/-- The tree of an editor is the parse of its content.  The fixes of a pass are read off
the tree and applied to the content, so this is what makes them fit. -/
def Parsed (editor : Editor) : Prop := parse editor.content editor.dialect = .ok editor.tree

variable {parse}

/-- What holds of the editor at the start and is kept by every call, and what a call
then shows, holds of every run of a session.  The property of runs may depend on the
editor before the call, which the step provides. -/
theorem session_induction {P : Editor → Prop} {Q : FixRun → Prop}
    (step : ∀ (editor : Editor) (call : FixCall), P editor →
      P (editor.fixAll parse call.disambiguate call.maxPasses).editor ∧
        Q (editor.fixAll parse call.disambiguate call.maxPasses))
    {editor : Editor} (h : P editor) (calls : List FixCall) :
    ∀ run ∈ editor.session parse calls, Q run := by
  induction calls generalizing editor with
  | nil =>
      intro run mem
      simp [session] at mem
  | cons call rest ih =>
      intro run mem
      obtain ⟨next, shown⟩ := step editor call h
      rcases List.mem_cons.mp mem with rfl | later
      · exact shown
      · exact ih next run later

/-! ## Content and tree stay in step -/

/-- A new editor has the content and the dialect that it was asked for. -/
theorem of_new_eq_ok {content : String} {dialect : Dialect} {editor : Editor}
    (h : Editor.new parse content dialect = .ok editor) :
    editor.content = content ∧ editor.dialect = dialect ∧ editor.Parsed parse := by
  rw [new] at h
  cases hparse : parse content dialect with
  | error error => simp [hparse, Except.map] at h
  | ok tree =>
      simp only [hparse, Except.map, Except.ok.injEq] at h
      subst h
      exact ⟨rfl, rfl, hparse⟩

/-- A pass leaves the new content with its own tree.  The dialect never changes, so it
can be left out of what is compared. -/
theorem parsed_of_pass {editor next : Editor} {selection : FixSelection}
    (h : pass parse editor selection = .ok next) :
    next.Parsed parse ∧ next.dialect = editor.dialect := by
  obtain ⟨_, hparse, hdialect, _⟩ := of_pass_eq_ok parse h
  exact ⟨by rw [Parsed, hdialect]; exact hparse, hdialect⟩

/-- **A call keeps the tree in step with the content, and the dialect.**  Failed calls
included: they leave the editor of the last pass that succeeded. -/
theorem parsed_fixAll {editor : Editor} (h : editor.Parsed parse) (disambiguate : Bool)
    (limit : Nat) :
    (editor.fixAll parse disambiguate limit).editor.Parsed parse ∧
      (editor.fixAll parse disambiguate limit).editor.dialect = editor.dialect := by
  cases clean : editor.hasErrors with
  | true =>
      rw [fixAll_of_hasErrors parse clean]
      exact ⟨h, rfl⟩
  | false =>
      rw [fixAll_of_not_hasErrors parse clean]
      refine fixFrom_editor_induction
        (P := fun later => later.Parsed parse ∧ later.dialect = editor.dialect) ?_ limit .none
        ⟨h, rfl⟩
      intro middle next start hpass
      obtain ⟨parsed, hdialect⟩ := parsed_of_pass hpass
      exact ⟨parsed, hdialect.trans start.2⟩

/-- A call neither brings errors into a source nor takes them out of one.  A source with
errors stays as it is, and a pass that would bring errors in fails. -/
theorem hasErrors_fixAll (parse : Parser) (editor : Editor) (disambiguate : Bool) (limit : Nat) :
    (editor.fixAll parse disambiguate limit).editor.hasErrors = editor.hasErrors := by
  cases clean : editor.hasErrors with
  | true => rw [fixAll_of_hasErrors parse clean, clean]
  | false =>
      rw [fixAll_of_not_hasErrors parse clean]
      exact hasErrors_fixFrom parse disambiguate clean limit .none

variable (parse) in
/-- **The invariant of a session**: how an editor reached from a start relates to it.
It relates every editor of a session to the first, so it survives any number of calls.
-/
structure InStep (start editor : Editor) : Prop where
  parsed : editor.Parsed parse
  dialect_eq : editor.dialect = start.dialect
  hasErrors_eq : editor.hasErrors = start.hasErrors
  /-- A source with errors is never changed. -/
  eq_of_hasErrors : start.hasErrors = true → editor = start

/-- A call keeps it, whatever its settings. -/
theorem inStep_fixAll {start editor : Editor} (h : InStep parse start editor) (disambiguate : Bool)
    (limit : Nat) : InStep parse start (editor.fixAll parse disambiguate limit).editor where
  parsed := (parsed_fixAll h.parsed disambiguate limit).1
  dialect_eq := (parsed_fixAll h.parsed disambiguate limit).2.trans h.dialect_eq
  hasErrors_eq := (hasErrors_fixAll parse editor disambiguate limit).trans h.hasErrors_eq
  eq_of_hasErrors := by
    intro errors
    rw [fixAll_of_hasErrors parse (h.hasErrors_eq.trans errors)]
    exact h.eq_of_hasErrors errors

/-- And a source that had errors at the start is refused every time. -/
theorem outcome_fixAll_of_inStep {start editor : Editor} (h : InStep parse start editor)
    (errors : start.hasErrors = true) (disambiguate : Bool) (limit : Nat) :
    (editor.fixAll parse disambiguate limit).outcome = .error .sourceHasErrors := by
  rw [fixAll_of_hasErrors parse (h.hasErrors_eq.trans errors)]

end Editor

/-! ## A specimen -/

namespace Specimen

/-- A variable with a literal over several lines. -/
def source : String := "let a: \x7b\n\n\n\x7d"

/-- The source with the literal hoisted. -/
def hoisted : String := "type AType = \x7b\n\n\n\x7d;\n\nlet a: AType"

/-- A named node of the parser. -/
def branch (kind : String) (field : Option String) (startByte stopByte : Nat)
    (children : List RawTree) : RawTree :=
  .node { kind, named := true, field, startByte, stopByte } children

/-- An anonymous token of the parser. -/
def token (kind : String) (field : Option String) (startByte stopByte : Nat) : RawTree :=
  .node { kind, named := false, field, startByte, stopByte } []

/-- What the parser says about `source`. -/
def raw : RawTree :=
  branch "program" none 0 12 [
    branch "lexical_declaration" none 0 12 [
      token "let" (some "kind") 0 3,
      branch "variable_declarator" none 4 12 [
        branch "identifier" (some "name") 4 5 [],
        branch "type_annotation" (some "type") 5 12 [
          token ":" none 5 6,
          branch "object_type" none 7 12 [token "\x7b" none 7 8, token "\x7d" none 11 12]]]]]

/-- What the parser says about `hoisted`. -/
def hoistedRaw : RawTree :=
  branch "program" none 0 33 [
    branch "type_alias_declaration" none 0 19 [
      token "type" none 0 4,
      branch "type_identifier" (some "name") 5 10 [],
      token "=" none 11 12,
      branch "object_type" (some "value") 13 18 [token "\x7b" none 13 14, token "\x7d" none 17 18],
      token ";" none 18 19],
    branch "lexical_declaration" none 21 33 [
      token "let" (some "kind") 21 24,
      branch "variable_declarator" none 25 33 [
        branch "identifier" (some "name") 25 26 [],
        branch "type_annotation" (some "type") 26 33 [
          token ":" none 26 27,
          branch "type_identifier" none 28 33 []]]]]

/-- The parser on the two sources. -/
def parser : Parser := fun content _ =>
  if content = source then .ok (.ofRaw source raw false)
  else if content = hoisted then .ok (.ofRaw hoisted hoistedRaw false)
  else .error .noTree

/-- The editor of the specimen. -/
def editor : Editor where
  content := source
  dialect := .typeScript
  tree := .ofRaw source raw false

theorem new_eq_ok : Editor.new parser source .typeScript = .ok editor := by
  rw [Editor.new, parser, if_pos rfl]
  rfl

end Specimen

/-- **Content, dialect and tree stay in step through every session**, whether its calls succeed or
fail: at the start and after each call the tree is the parse of the content, in the dialect of the
start.  A source that parsed without errors does so after every call, and one with errors is refused
by every call and never changed. -/
theorem session_in_step (parse : Parser) {content : String} {dialect : Dialect} {editor : Editor}
    (opened : Editor.new parse content dialect = .ok editor) (calls : List FixCall) :
    (editor.content = content ∧ editor.dialect = dialect ∧
      parse content dialect = .ok editor.tree) ∧
    ∀ run ∈ editor.session parse calls,
      run.editor.dialect = dialect ∧
        parse run.editor.content dialect = .ok run.editor.tree ∧
        (editor.hasErrors = false → run.editor.hasErrors = false) ∧
        (editor.hasErrors = true →
          run.outcome = .error .sourceHasErrors ∧ run.editor.content = content) := by
  obtain ⟨rfl, rfl, parsed⟩ := Editor.of_new_eq_ok opened
  refine ⟨⟨rfl, rfl, parsed⟩, ?_⟩
  refine Editor.session_induction (P := Editor.InStep parse editor) ?_
    ⟨parsed, rfl, rfl, fun _ => rfl⟩ calls
  intro middle call start
  have next := Editor.inStep_fixAll start call.disambiguate call.maxPasses
  refine ⟨next, next.dialect_eq, next.dialect_eq ▸ next.parsed, fun clean => ?_, fun errors => ?_⟩
  · exact next.hasErrors_eq.trans clean
  · exact ⟨Editor.outcome_fixAll_of_inStep start errors _ _,
      congrArg Editor.content (next.eq_of_hasErrors errors)⟩

theorem session_in_step_specimen :
    Editor.new Specimen.parser Specimen.source .typeScript = .ok Specimen.editor ∧
      ∀ run ∈ Specimen.editor.session Specimen.parser [⟨true, 1⟩, ⟨false, 10⟩],
        run.editor.dialect = .typeScript ∧
          Specimen.parser run.editor.content .typeScript = .ok run.editor.tree ∧
          run.editor.hasErrors = false := by
  refine ⟨Specimen.new_eq_ok, fun run mem => ?_⟩
  obtain ⟨hdialect, hparse, clean, _⟩ :=
    (session_in_step Specimen.parser Specimen.new_eq_ok [⟨true, 1⟩, ⟨false, 10⟩]).2 run mem
  exact ⟨hdialect, hparse, clean rfl⟩

/-! ## No call fails on its edits -/

/-- **What is assumed of a parser**: its trees are lowered from raw trees that fit their
sources.  It is about spans and links of the raw tree and says nothing about its kinds.
-/
def Parser.LowersFitting (parse : Parser) : Prop :=
  ∀ ⦃content : String⦄ ⦃dialect : Dialect⦄ ⦃tree : SyntaxTree⦄,
    parse content dialect = .ok tree →
      ∃ raw hasErrors, RawTree.fits content.toList raw = true ∧
        tree = SyntaxTree.ofRaw content raw hasErrors

theorem Specimen.lowersFitting : parser.LowersFitting := by
  intro content dialect tree h
  rw [parser] at h
  split at h
  · rename_i heq
    subst heq
    exact ⟨raw, false, by decide, (Except.ok.inj h).symm⟩
  · split at h
    · rename_i heq
      subst heq
      exact ⟨hoistedRaw, false, by decide, (Except.ok.inj h).symm⟩
    · simp at h

namespace Editor

variable {parse : Parser}

/-- The pass of an editor whose tree is in step does not fail on its edits.  The tree in
step is the tree of the content, so its fixes are ranges of it. -/
theorem pass_ne_edit_error (lowers : parse.LowersFitting) {editor : Editor}
    (h : editor.Parsed parse) (disambiguate : Bool) (error : EditError) :
    pass parse editor (editor.chosen disambiguate) ≠ .error (.edit error) := by
  intro failed
  obtain ⟨raw, hasErrors, fits, htree⟩ := lowers h
  obtain ⟨text, applied⟩ := exists_applyEdits_lint fits hasErrors disambiguate
  have refused := of_pass_eq_edit_error parse failed
  rw [chosen, findings, htree, applied] at refused
  simp at refused

/-- Nor does a whole call fail on its edits, since it fails only where a pass does. -/
theorem fixAll_ne_edit_error (lowers : parse.LowersFitting) {editor : Editor}
    (h : editor.Parsed parse) (disambiguate : Bool) (limit : Nat) (error : EditError) :
    (editor.fixAll parse disambiguate limit).outcome ≠ .error (.edit error) := by
  intro failed
  have parsed := (parsed_fixAll h disambiguate limit).1
  cases clean : editor.hasErrors with
  | true =>
      rw [fixAll_of_hasErrors parse clean] at failed
      simp at failed
  | false =>
      rw [fixAll_of_not_hasErrors parse clean] at failed parsed
      -- the editor left by the failed run is in step too, so its next pass cannot fail this way
      exact pass_ne_edit_error lowers parsed disambiguate error (pass_of_fixFrom_error failed)

end Editor

/-- **A pass never fails on its own edits.**  Whatever the source, a tree lowered from a raw tree
that fits it gives fixes of which the selected ones can be applied; so no call of any session with a
parser of such trees ends with overlapping edits or with edits that are out of bounds. -/
theorem selected_edits_apply :
    (∀ (source : String) (raw : RawTree) (hasErrors disambiguate : Bool),
      raw.fits source.toList = true →
        ∃ text, applyEdits source (selectFixes (fixesOf
          (lint (.ofRaw source raw hasErrors) disambiguate))).edits = .ok text) ∧
    (∀ (parse : Parser) (content : String) (dialect : Dialect) (editor : Editor)
      (calls : List FixCall), parse.LowersFitting → Editor.new parse content dialect = .ok editor →
        ∀ run ∈ editor.session parse calls, ∀ error, run.outcome ≠ .error (.edit error)) := by
  refine ⟨fun source raw hasErrors disambiguate fits =>
    exists_applyEdits_lint fits hasErrors disambiguate, ?_⟩
  intro parse content dialect editor calls lowers opened
  refine Editor.session_induction (P := Editor.Parsed parse) ?_ (Editor.of_new_eq_ok opened).2.2
    calls
  intro middle call parsed
  exact ⟨(Editor.parsed_fixAll parsed _ _).1, Editor.fixAll_ne_edit_error lowers parsed _ _⟩

theorem selected_edits_apply_specimen :
    Specimen.parser.LowersFitting ∧ Specimen.raw.fits Specimen.source.toList = true ∧
      (∃ text, applyEdits Specimen.source (selectFixes (fixesOf
        (lint (.ofRaw Specimen.source Specimen.raw false) true))).edits = .ok text) ∧
      ∀ run ∈ Specimen.editor.session Specimen.parser [⟨true, 1⟩, ⟨false, 10⟩],
        ∀ error, run.outcome ≠ .error (.edit error) :=
  ⟨Specimen.lowersFitting, by decide,
    selected_edits_apply.1 Specimen.source Specimen.raw false true (by decide),
    selected_edits_apply.2 Specimen.parser Specimen.source .typeScript Specimen.editor _
      Specimen.lowersFitting Specimen.new_eq_ok⟩

end AliasHoist
