import AliasHoist.Editor

/-!
# Runs of passes

A run of fixes is a loop that may end in three ways: nothing is left to select, the limit is reached,
or a pass fails.  This module takes the loop apart once, one equation for each way a round can go,
and derives from the equations what a run keeps, what its end says about the editor it leaves, and
how runs compose.

## Main Definitions

* `Editor.chosen`: the fixes that the next pass of an editor applies;
* `FixRun.result`: what a run leaves, the log apart;
* `Progress.followedBy`: the outcome of a run, with what was done before it.

## Main Statements

* `fixFrom_editor_induction`: what every pass keeps, a run keeps, whether it fails or not;
* `pass_of_fixFrom_error`: a run that fails leaves the editor whose next pass fails;
* `fixAll_add_limits`: limits add up.

## Design Notes

A run carries its progress along, so that two runs in a row are not the same calls as one run over
both limits: the second starts from no progress.  `result_fixFrom_append` says that the progress at
the start only goes in front of the outcome, and everything about composition is stated for runs
from any progress.
-/

namespace AliasHoist

/-- What a run leaves, the log apart.  The log is for the console and no later call
depends on it. -/
def FixRun.result (run : FixRun) : Editor × Except FixError FixOutcome := (run.editor, run.outcome)

namespace Progress

/-- Progress after further progress.  It is not commutative, since the names are in the
order of the passes. -/
def append (progress further : Progress) : Progress where
  applied := progress.applied + further.applied
  passes := progress.passes + further.passes
  aliases := progress.aliases ++ further.aliases

@[simp] theorem append_none (progress : Progress) : progress.append .none = progress := by
  simp [append, none]

@[simp] theorem add_passes (progress : Progress) (selection : FixSelection) :
    (progress.add selection).passes = progress.passes + 1 := rfl

@[simp] theorem append_add (progress further : Progress) (selection : FixSelection) :
    (progress.append further).add selection = progress.append (further.add selection) := by
  simp [append, add, Nat.add_assoc]

end Progress

/-- **The outcome of a run, with what was done before it**: the counts are added, the aliases of the
run come after the earlier ones, and what remains is what the run leaves. -/
def Progress.followedBy (progress : Progress) (outcome : FixOutcome) : FixOutcome where
  toProgress := progress.append outcome.toProgress
  remaining := outcome.remaining

namespace Editor

/-- The fixes that the next pass of an editor applies, and those it defers.  They are a
function of the editor, so a run is determined by where it starts. -/
def chosen (editor : Editor) (disambiguate : Bool) : FixSelection :=
  selectFixes (fixesOf (editor.findings disambiguate))

variable (parse : Parser)

/-! ## One pass -/

/-- **What a pass that succeeds leaves**: the edited text with its tree, free of errors.
Everything about sessions follows from this; a failed pass leaves no editor at all. -/
theorem of_pass_eq_ok {editor next : Editor} {selection : FixSelection}
    (h : pass parse editor selection = .ok next) :
    applyEdits editor.content selection.edits = .ok next.content ∧
      parse next.content editor.dialect = .ok next.tree ∧
      next.dialect = editor.dialect ∧ next.hasErrors = false := by
  rw [pass] at h
  cases hedit : applyEdits editor.content selection.edits with
  | error error => simp [hedit] at h
  | ok content =>
      cases hparse : parse content editor.dialect with
      | error error => simp [hedit, hparse] at h
      | ok tree =>
          simp only [hedit, hparse] at h
          split at h
          · simp at h
          · rename_i clean
            obtain rfl := Except.ok.inj h
            exact ⟨rfl, hparse, rfl, by simpa [hasErrors] using clean⟩

/-- **A pass from its edits.**  Where the edits of the accepted fixes are in order
already, sorting them is no part of the computation, and the sweep can be evaluated. -/
theorem pass_of_inOrder {editor : Editor} {selection : FixSelection} {content : String}
    {tree : SyntaxTree} (sorted : selection.edits.Pairwise (Edit.comesBefore · ·))
    (swept : (sweep editor.content.toList 0 selection.edits).map String.ofList = .ok content)
    (parsed : parse content editor.dialect = .ok tree) (clean : tree.hasErrors = false) :
    pass parse editor selection = .ok { content, dialect := editor.dialect, tree } := by
  have applied : applyEdits editor.content selection.edits = .ok content := by
    rw [applyEdits, inOrder, List.mergeSort_of_pairwise sorted, swept]
  simp [pass, applied, parsed, clean]

/-- A pass fails on its edits only when they cannot be applied.  So that passes never
fail on their edits is a statement about selections. -/
theorem of_pass_eq_edit_error {editor : Editor} {selection : FixSelection} {error : EditError}
    (h : pass parse editor selection = .error (.edit error)) :
    applyEdits editor.content selection.edits = .error error := by
  rw [pass] at h
  cases hedit : applyEdits editor.content selection.edits with
  | error found =>
      simp only [hedit, Except.error.injEq, FixError.edit.injEq] at h
      rw [h]
  | ok content =>
      cases hparse : parse content editor.dialect with
      | error found => simp [hedit, hparse] at h
      | ok tree =>
          simp only [hedit, hparse] at h
          split at h <;> simp at h

/-! ## One round of the loop -/

variable {parse} {disambiguate : Bool}

/-- **One round of the loop**, the log apart.  The three lemmas below are its cases,
with their conditions as hypotheses. -/
theorem result_fixFrom_succ (editor : Editor) (limit : Nat) (progress : Progress) :
    (fixFrom parse disambiguate (limit + 1) editor progress).result =
      if (editor.chosen disambiguate).accepted = [] then
        (editor, .ok { toProgress := progress, remaining := editor.findings disambiguate })
      else
        match pass parse editor (editor.chosen disambiguate) with
        | .error error => (editor, .error error)
        | .ok next =>
            (fixFrom parse disambiguate limit next
              (progress.add (editor.chosen disambiguate))).result := by
  rw [fixFrom, ← chosen]
  simp only [List.isEmpty_iff]
  split
  · rfl
  · cases pass parse editor (editor.chosen disambiguate) with
    | error error => rfl
    | ok next => rfl

/-- When no fix can be selected the run ends, whatever its limit.  That is why a run
cannot do harm by having passes to spare. -/
theorem result_fixFrom_of_nil {editor : Editor} (h : (editor.chosen disambiguate).accepted = [])
    (limit : Nat) (progress : Progress) :
    (fixFrom parse disambiguate limit editor progress).result =
      (editor, .ok { toProgress := progress, remaining := editor.findings disambiguate }) := by
  cases limit with
  | zero => rfl
  | succ limit => rw [result_fixFrom_succ, if_pos h]

/-- A pass that fails ends the run, and the editor is the one before it. -/
theorem result_fixFrom_of_error {editor : Editor} {error : FixError}
    (h : (editor.chosen disambiguate).accepted ≠ [])
    (failed : pass parse editor (editor.chosen disambiguate) = .error error) (limit : Nat)
    (progress : Progress) :
    (fixFrom parse disambiguate (limit + 1) editor progress).result = (editor, .error error) := by
  rw [result_fixFrom_succ, if_neg h, failed]

/-- After a pass that succeeds, the run goes on with one pass less. -/
theorem result_fixFrom_of_ok {editor next : Editor}
    (h : (editor.chosen disambiguate).accepted ≠ [])
    (passed : pass parse editor (editor.chosen disambiguate) = .ok next) (limit : Nat)
    (progress : Progress) :
    (fixFrom parse disambiguate (limit + 1) editor progress).result =
      (fixFrom parse disambiguate limit next
        (progress.add (editor.chosen disambiguate))).result := by
  rw [result_fixFrom_succ, if_neg h, passed]

/-! ## Whole runs -/

/-- **Induction along a run**: it ends because the limit is reached or nothing is
selected, it ends because a pass fails, or a pass succeeds and the rest of the run
follows.  The motive is about results, so that the log does not get into proofs. -/
theorem fixFrom_induction (parse : Parser) (disambiguate : Bool)
    {motive : Nat → Editor → Progress → Editor × Except FixError FixOutcome → Prop}
    (finished : ∀ (limit : Nat) (editor : Editor) (progress : Progress),
      limit = 0 ∨ (editor.chosen disambiguate).accepted = [] →
      motive limit editor progress
        (editor, .ok { toProgress := progress, remaining := editor.findings disambiguate }))
    (failed : ∀ (limit : Nat) (editor : Editor) (progress : Progress) (error : FixError),
      (editor.chosen disambiguate).accepted ≠ [] →
      pass parse editor (editor.chosen disambiguate) = .error error →
      motive (limit + 1) editor progress (editor, .error error))
    (passed : ∀ (limit : Nat) (editor next : Editor) (progress : Progress)
      (result : Editor × Except FixError FixOutcome),
      (editor.chosen disambiguate).accepted ≠ [] →
      pass parse editor (editor.chosen disambiguate) = .ok next →
      motive limit next (progress.add (editor.chosen disambiguate)) result →
      motive (limit + 1) editor progress result)
    (limit : Nat) (editor : Editor) (progress : Progress) :
    motive limit editor progress (fixFrom parse disambiguate limit editor progress).result := by
  induction limit generalizing editor progress with
  | zero => exact finished 0 editor progress (Or.inl rfl)
  | succ limit ih =>
      by_cases h : (editor.chosen disambiguate).accepted = []
      · rw [result_fixFrom_of_nil h]
        exact finished (limit + 1) editor progress (Or.inr h)
      · cases hpass : pass parse editor (editor.chosen disambiguate) with
        | error error =>
            rw [result_fixFrom_of_error h hpass]
            exact failed limit editor progress error h hpass
        | ok next =>
            rw [result_fixFrom_of_ok h hpass]
            exact passed limit editor next progress _ h hpass (ih next _)

/-- What every pass keeps, a run keeps, whether it fails or not.  Errors play no part in
it, as a failed pass leaves the editor as it was. -/
theorem fixFrom_editor_induction {P : Editor → Prop}
    (step : ∀ editor next : Editor, P editor →
      pass parse editor (editor.chosen disambiguate) = .ok next → P next)
    (limit : Nat) {editor : Editor} (progress : Progress) (h : P editor) :
    P (fixFrom parse disambiguate limit editor progress).editor := by
  refine fixFrom_induction parse disambiguate
    (motive := fun _ start _ result => P start → P result.1) ?_ ?_ ?_ limit editor progress h
  · intro _ _ _ _ start
    exact start
  · intro _ _ _ _ _ _ start
    exact start
  · intro _ editor next _ _ _ hpass rest start
    exact rest (step editor next start hpass)

/-- **A run that fails leaves the editor whose next pass fails**, with the same error.
Hence what is known of single passes is known of failing runs. -/
theorem pass_of_fixFrom_error {limit : Nat} {editor : Editor} {progress : Progress}
    {error : FixError}
    (h : (fixFrom parse disambiguate limit editor progress).outcome = .error error) :
    pass parse (fixFrom parse disambiguate limit editor progress).editor
      ((fixFrom parse disambiguate limit editor progress).editor.chosen disambiguate) =
        .error error := by
  refine fixFrom_induction parse disambiguate
    (motive := fun _ _ _ result => result.2 = .error error →
      pass parse result.1 (result.1.chosen disambiguate) = .error error) ?_ ?_ ?_ limit editor
    progress h
  · intro _ _ _ _ h
    simp at h
  · intro _ _ _ _ _ hpass h
    rw [hpass, Except.error.inj h]
  · intro _ _ _ _ _ _ _ rest
    exact rest

/-- What remains after a run that succeeds are the findings of the editor it leaves.
They are computed at the end and not carried along. -/
theorem remaining_of_fixFrom_ok {limit : Nat} {editor : Editor} {progress : Progress}
    {outcome : FixOutcome}
    (h : (fixFrom parse disambiguate limit editor progress).outcome = .ok outcome) :
    outcome.remaining =
      (fixFrom parse disambiguate limit editor progress).editor.findings disambiguate := by
  refine fixFrom_induction parse disambiguate
    (motive := fun _ _ _ result => result.2 = .ok outcome →
      outcome.remaining = result.1.findings disambiguate) ?_ ?_ ?_ limit editor progress h
  · intro _ _ _ _ h
    rw [← Except.ok.inj h]
  · intro _ _ _ _ _ _ h
    simp at h
  · intro _ _ _ _ _ _ _ rest
    exact rest

/-- **A run that stops before its limit has nothing left to select.**  With its limit
used up a run may leave something, which is all that a user has to know to ask for more.
-/
theorem chosen_of_fixFrom_ok {limit : Nat} {editor : Editor} {progress : Progress}
    {outcome : FixOutcome}
    (h : (fixFrom parse disambiguate limit editor progress).outcome = .ok outcome)
    (early : outcome.passes < progress.passes + limit) :
    ((fixFrom parse disambiguate limit editor progress).editor.chosen
      disambiguate).accepted = [] := by
  refine fixFrom_induction parse disambiguate
    (motive := fun limit _ progress result => result.2 = .ok outcome →
      outcome.passes < progress.passes + limit →
        (result.1.chosen disambiguate).accepted = []) ?_ ?_ ?_ limit editor progress h early
  · intro limit editor progress stop h early
    rcases stop with rfl | nothing
    · -- without a pass to go, the run has not stopped early
      rw [← Except.ok.inj h] at early
      exact absurd early (Nat.lt_irrefl _)
    · exact nothing
  · intro _ _ _ _ _ _ h
    simp at h
  · intro limit editor next progress result _ _ rest h early
    refine rest h ?_
    rw [Progress.add_passes]
    omega

/-! ## Composition -/

/-- **The progress at the start of a run only goes in front of its outcome.**  It makes
the progress a parameter that can be taken out of the induction. -/
theorem result_fixFrom_append (earlier : Progress) (limit : Nat) (editor : Editor)
    (progress : Progress) :
    (fixFrom parse disambiguate limit editor (earlier.append progress)).result =
      ((fixFrom parse disambiguate limit editor progress).editor,
        (fixFrom parse disambiguate limit editor progress).outcome.map earlier.followedBy) := by
  refine fixFrom_induction parse disambiguate
    (motive := fun limit editor progress result =>
      (fixFrom parse disambiguate limit editor (earlier.append progress)).result =
        (result.1, result.2.map earlier.followedBy)) ?_ ?_ ?_ limit editor progress
  · intro limit editor progress stop
    rcases stop with rfl | nothing
    · rfl
    · rw [result_fixFrom_of_nil nothing]
      rfl
  · intro limit editor progress error some hpass
    rw [result_fixFrom_of_error some hpass]
    rfl
  · intro limit editor next progress result some hpass rest
    rw [result_fixFrom_of_ok some hpass, Progress.append_add]
    exact rest

/-- **A run over two limits is a run over the first, followed from where it ends by a
run over the second**, unless the first fails.  The second run goes on with the progress
of the first, so this is composition in its raw form. -/
theorem result_fixFrom_add (first second : Nat) (editor : Editor) (progress : Progress) :
    (fixFrom parse disambiguate (first + second) editor progress).result =
      match (fixFrom parse disambiguate first editor progress).outcome with
      | .error error => ((fixFrom parse disambiguate first editor progress).editor, .error error)
      | .ok outcome =>
          (fixFrom parse disambiguate second
            (fixFrom parse disambiguate first editor progress).editor
            outcome.toProgress).result := by
  refine fixFrom_induction parse disambiguate
    (motive := fun first editor progress result =>
      (fixFrom parse disambiguate (first + second) editor progress).result =
        match result.2 with
        | .error error => (result.1, .error error)
        | .ok outcome =>
            (fixFrom parse disambiguate second result.1 outcome.toProgress).result) ?_ ?_ ?_ first
    editor progress
  · intro first editor progress stop
    rcases stop with rfl | nothing
    · rw [Nat.zero_add]
    · -- the same editor is met by both limits, and neither can select anything
      rw [result_fixFrom_of_nil nothing]
      exact (result_fixFrom_of_nil nothing second progress).symm
  · intro first editor progress error some hpass
    rw [Nat.succ_add, result_fixFrom_of_error some hpass]
  · intro first editor next progress result some hpass rest
    rw [Nat.succ_add, result_fixFrom_of_ok some hpass]
    exact rest

/-! ## Calls -/

/-- A source with errors is refused by every call. -/
theorem fixAll_of_hasErrors (parse : Parser) {editor : Editor} (h : editor.hasErrors = true)
    (disambiguate : Bool) (limit : Nat) :
    editor.fixAll parse disambiguate limit =
      { editor, log := [], outcome := .error .sourceHasErrors } := by
  rw [fixAll, if_pos h]

/-- Any other source is fixed from no progress. -/
theorem fixAll_of_not_hasErrors (parse : Parser) {editor : Editor} (h : editor.hasErrors = false)
    (disambiguate : Bool) (limit : Nat) :
    editor.fixAll parse disambiguate limit = fixFrom parse disambiguate limit editor .none := by
  rw [fixAll, h]
  rfl

/-- A run from a source without errors leaves one.  So a call that succeeds can be
followed by another. -/
theorem hasErrors_fixFrom (parse : Parser) (disambiguate : Bool) {editor : Editor}
    (h : editor.hasErrors = false) (limit : Nat) (progress : Progress) :
    (fixFrom parse disambiguate limit editor progress).editor.hasErrors = false := by
  refine fixFrom_editor_induction (P := fun editor => editor.hasErrors = false) ?_ limit progress h
  intro editor next _ hpass
  exact (of_pass_eq_ok parse hpass).2.2.2

/-- **Limits add up.**  A call with limit `m` and then, from where it ends, a call with limit `n`
leave what one call with limit `m + n` leaves, and its outcome is that of the two taken together; an
error of either is the error of the one call.  So a call that stops before its limit can be repeated
with any limit without effect. -/
theorem fixAll_add_limits (parse : Parser) (editor : Editor) (disambiguate : Bool) (m n : Nat) :
    (∀ error, (editor.fixAll parse disambiguate m).outcome = .error error →
      (editor.fixAll parse disambiguate (m + n)).result =
        ((editor.fixAll parse disambiguate m).editor, .error error)) ∧
    (∀ first, (editor.fixAll parse disambiguate m).outcome = .ok first →
      (editor.fixAll parse disambiguate (m + n)).result =
        (((editor.fixAll parse disambiguate m).editor.fixAll parse disambiguate n).editor,
          ((editor.fixAll parse disambiguate m).editor.fixAll parse disambiguate n).outcome.map
            first.followedBy)) ∧
    (∀ first, (editor.fixAll parse disambiguate m).outcome = .ok first → first.passes < m →
      ∀ limit, ((editor.fixAll parse disambiguate m).editor.fixAll parse disambiguate limit).result =
        ((editor.fixAll parse disambiguate m).editor,
          .ok { toProgress := .none, remaining := first.remaining })) := by
  cases clean : editor.hasErrors with
  | true =>
      simp only [fixAll_of_hasErrors parse clean, reduceCtorEq, false_imp_iff, implies_true,
        and_true, Except.error.injEq]
      intro error h
      rw [← h]
      rfl
  | false =>
      have cleanAfter := hasErrors_fixFrom parse disambiguate clean m .none
      simp only [fixAll_of_not_hasErrors parse clean, fixAll_of_not_hasErrors parse cleanAfter]
      refine ⟨?_, ?_, ?_⟩
      · intro error h
        rw [result_fixFrom_add, h]
      · intro first h
        rw [result_fixFrom_add, h, ← result_fixFrom_append, Progress.append_none]
      · intro first h early limit
        have early' : first.passes < Progress.none.passes + m := by
          simpa [Progress.none] using early
        rw [result_fixFrom_of_nil (chosen_of_fixFrom_ok h early'), remaining_of_fixFrom_ok h]

end Editor

end AliasHoist
