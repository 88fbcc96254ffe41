import AliasHoist.Proofs.Command.Fixing
import AliasHoist.Proofs.Rewrite.Selection

/-!
# What a run of fixes reports

A run that succeeds says how many fixes it has applied, in how many passes, under which names, and
what is left.  The command reads more into that than is said: it takes a finding that is left with a
fix for a sign that the limit on passes was reached.  This module says that the outcome is true of
the run, and that the command reads it rightly.

## Main Definitions

* `Progress.IsSound`: every pass has applied a fix, and every fix has left its name;
* `FixOutcome.IsTruthful`: what an outcome says is true of the run.

## Main Statements

* `chosen_eq_nil_iff`: a pass has nothing to apply just when no finding has a fix;
* `isSound_of_fixFrom_ok`, `passes_of_fixFrom_ok`: what holds of the counts along a run;
* `leftReason_eq_iff`: which findings are reported as left by the limit;
* `reports_are_truthful`: what is reported of a run that succeeds is true.

### What is load-bearing

A run stops before its limit only when nothing is accepted, and something is accepted wherever a
finding has a fix.  So a finding that is left with a fix cannot have been deferred for another
reason than the limit, whatever the parser makes of the texts in between.
-/

namespace AliasHoist

namespace Progress

/-- **Every pass has applied a fix, and every fix has left its name.**  The first part
makes the list of names a complete account of the fixes. -/
structure IsSound (progress : Progress) : Prop where
  applied_eq : progress.applied = progress.aliases.length
  passes_le : progress.passes ≤ progress.applied

/-- At the start all counts are zero. -/
theorem isSound_none : Progress.none.IsSound := ⟨rfl, Nat.le_refl 0⟩

/-- One more pass that applies something keeps the counts sound. -/
theorem IsSound.add {progress : Progress} (h : progress.IsSound) {selection : FixSelection}
    (some : selection.accepted ≠ []) : (progress.add selection).IsSound := by
  have := List.length_pos_of_ne_nil some
  constructor
  · show progress.applied + selection.accepted.length =
      (progress.aliases ++ selection.accepted.map (·.aliasName)).length
    rw [List.length_append, List.length_map, h.applied_eq]
  · show progress.passes + 1 ≤ progress.applied + selection.accepted.length
    have := h.passes_le
    omega

end Progress

namespace Editor

variable {parse : Parser} {disambiguate : Bool}

/-- **A pass has nothing to apply just when no finding has a fix.**  Overlapping fixes
are no obstacle to this: of some that overlap, one is always accepted. -/
theorem chosen_eq_nil_iff {editor : Editor} :
    (editor.chosen disambiguate).accepted = [] ↔
      ∀ finding ∈ editor.findings disambiguate, finding.isFixable = false := by
  rw [chosen, accepted_selectFixes_eq_nil_iff, fixesOf, List.filterMap_eq_nil_iff]
  simp [Finding.isFixable]

/-! ## Counts along a run -/

/-- **The counts stay sound along a run.**  An induction along the passes, with
`IsSound.add` as its step. -/
theorem isSound_of_fixFrom_ok {limit : Nat} {editor : Editor} {progress : Progress}
    {outcome : FixOutcome} (start : progress.IsSound)
    (h : (fixFrom parse disambiguate limit editor progress).outcome = .ok outcome) :
    outcome.toProgress.IsSound := by
  refine fixFrom_induction parse disambiguate
    (motive := fun _ _ progress result => progress.IsSound → result.2 = .ok outcome →
      outcome.toProgress.IsSound) ?_ ?_ ?_ limit editor progress start h
  · intro _ _ progress _ start h
    rw [← Except.ok.inj h]
    exact start
  · intro _ _ _ _ _ _ _ h
    simp at h
  · intro _ editor _ progress _ some _ rest start
    exact rest (start.add some)

/-- **A run makes no more passes than its limit allows**, and one that makes none leaves
the editor as it is.  The counts are relative to those at the start, as an induction
along the passes needs it. -/
theorem passes_of_fixFrom_ok {limit : Nat} {editor : Editor} {progress : Progress}
    {outcome : FixOutcome}
    (h : (fixFrom parse disambiguate limit editor progress).outcome = .ok outcome) :
    progress.passes ≤ outcome.passes ∧ outcome.passes ≤ progress.passes + limit ∧
      (outcome.passes = progress.passes →
        (fixFrom parse disambiguate limit editor progress).editor = editor) := by
  refine fixFrom_induction parse disambiguate
    (motive := fun limit editor progress result => result.2 = .ok outcome →
      progress.passes ≤ outcome.passes ∧ outcome.passes ≤ progress.passes + limit ∧
        (outcome.passes = progress.passes → result.1 = editor)) ?_ ?_ ?_ limit editor progress h
  · intro limit editor progress _ h
    rw [← Except.ok.inj h]
    exact ⟨Nat.le_refl _, Nat.le_add_right _ _, fun _ => rfl⟩
  · intro _ _ _ _ _ _ h
    simp at h
  · intro limit editor next progress result _ _ rest h
    obtain ⟨above, below, _⟩ := rest h
    rw [Progress.add_passes] at above below
    refine ⟨by omega, by omega, ?_⟩
    -- a pass has been made, so the counts differ
    intro same
    omega

end Editor

/-! ## Outcomes -/

/-- **What an outcome says is true of the run** from one editor to another: the counts fit each
other and the limit, what remains are the findings of the text that is left, a run without a pass
has changed nothing, a run that leaves something to fix has used up its passes, and one that found
something to fix has fixed something. -/
structure FixOutcome.IsTruthful (outcome : FixOutcome) (parse : Parser) (start final : Editor)
    (disambiguate : Bool) (limit : Nat) : Prop where
  passes_le : outcome.passes ≤ limit
  applied_eq : outcome.applied = outcome.aliases.length
  passes_le_applied : outcome.passes ≤ outcome.applied
  remaining_eq : outcome.remaining = final.findings disambiguate
  parsed : start.Parsed parse → final.Parsed parse
  unchanged : outcome.passes = 0 → final = start
  limit_reached : (∃ finding ∈ outcome.remaining, finding.isFixable = true) → outcome.passes = limit
  applied_pos : 1 ≤ limit → (∃ finding ∈ start.findings disambiguate, finding.isFixable = true) →
    1 ≤ outcome.applied

/-- **The outcome of a run that succeeds is truthful.** -/
theorem Editor.isTruthful_of_fixAll_ok {parse : Parser} {editor : Editor} {disambiguate : Bool}
    {limit : Nat} {outcome : FixOutcome}
    (h : (editor.fixAll parse disambiguate limit).outcome = .ok outcome) :
    outcome.IsTruthful parse editor (editor.fixAll parse disambiguate limit).editor disambiguate
      limit := by
  have inStep : editor.Parsed parse →
      (editor.fixAll parse disambiguate limit).editor.Parsed parse := by
    intro parsed
    exact (parsed_fixAll parsed disambiguate limit).1
  cases clean : editor.hasErrors with
  | true =>
      -- a text with errors is refused, so the run would not have succeeded
      rw [fixAll_of_hasErrors parse clean] at h
      simp at h
  | false =>
      rw [fixAll_of_not_hasErrors parse clean] at h inStep ⊢
      have sound := isSound_of_fixFrom_ok Progress.isSound_none h
      obtain ⟨_, passes_le, unchanged⟩ := passes_of_fixFrom_ok h
      have start : Progress.none.passes = 0 := rfl
      rw [start, Nat.zero_add] at passes_le
      have remaining := remaining_of_fixFrom_ok h
      -- a run that stops early leaves nothing that has a fix
      have early : outcome.passes < limit →
          ∀ finding ∈ outcome.remaining, finding.isFixable = false := by
        intro lt
        rw [remaining]
        apply chosen_eq_nil_iff.mp
        apply chosen_of_fixFrom_ok h
        omega
      refine ⟨passes_le, sound.applied_eq, sound.passes_le, remaining, inStep, unchanged, ?_, ?_⟩
      · rintro ⟨finding, mem, fixable⟩
        by_contra ne
        have left := early (Nat.lt_of_le_of_ne passes_le ne) finding mem
        simp [fixable] at left
      · rintro some ⟨finding, mem, fixable⟩
        by_contra nothing
        have passes := sound.passes_le
        have none : outcome.passes = 0 := by omega
        -- without a pass, what was found is what is left
        rw [unchanged none] at remaining
        have left := early (by omega) finding (remaining ▸ mem)
        simp [fixable] at left

namespace Command

/-! ## What is reported -/

/-- **The findings that are reported as left by the limit are those that have a fix.** -/
theorem leftReason_eq_iff {config : Config} {finding : Finding} :
    leftReason config finding = "pass limit (" ++ toString config.maxPasses ++ ") reached" ↔
      finding.isFixable = true := by
  unfold leftReason Finding.withheld? Finding.isFixable Finding.fix?
  cases finding.fix with
  | ok fix => simp [Except.toOption]
  | error reason =>
      -- the texts of the reasons begin with other letters
      have other : ∀ text : String, reason.text ≠ "pass limit (" ++ text ++ ") reached" := by
        intro text same
        have first := congrArg (fun text => text.toList.head?) same
        cases reason <;> simp [Withheld.text, String.toList_append] at first
      simp [Except.toOption, other]

/-- **What is reported of a run that succeeds is true.**  The outcome of every such run is truthful;
and the findings that are reported as left by the limit on passes are those that have a fix, and are
there only if the run has made as many passes as it was allowed. -/
theorem reports_are_truthful (parse : Parser) (editor : Editor) (disambiguate : Bool) (limit : Nat)
    (outcome : FixOutcome)
    (succeeds : (editor.fixAll parse disambiguate limit).outcome = .ok outcome) :
    outcome.IsTruthful parse editor (editor.fixAll parse disambiguate limit).editor disambiguate
        limit ∧
      ∀ config : Config, config.maxPasses = limit → ∀ finding ∈ outcome.remaining,
        (leftReason config finding = "pass limit (" ++ toString limit ++ ") reached" ↔
          finding.isFixable = true) ∧
        (leftReason config finding = "pass limit (" ++ toString limit ++ ") reached" →
          outcome.passes = limit) := by
  have truthful := Editor.isTruthful_of_fixAll_ok succeeds
  refine ⟨truthful, ?_⟩
  rintro config rfl finding mem
  refine ⟨leftReason_eq_iff, ?_⟩
  intro reported
  exact truthful.limit_reached ⟨finding, mem, leftReason_eq_iff.mp reported⟩

/-- The specimen is fixed in one pass of ten; without a pass, the limit is what leaves it. -/
theorem reports_are_truthful_specimen :
    (Specimen.editor.fixAll Specimen.parser true 10).outcome = .ok Specimen.hoistedSource.outcome ∧
      Specimen.hoistedSource.outcome.IsTruthful Specimen.parser Specimen.editor
        (Specimen.editor.fixAll Specimen.parser true 10).editor true 10 ∧
      ∃ outcome, (Specimen.editor.fixAll Specimen.parser true 0).outcome = .ok outcome ∧
        ∃ finding ∈ outcome.remaining, outcome.passes = 0 ∧
          leftReason { maxPasses := 0 } finding = "pass limit (0) reached" := by
  have fixed : (Specimen.editor.fixAll Specimen.parser true 10).outcome =
      .ok Specimen.hoistedSource.outcome := congrArg Prod.snd Specimen.result_fixAll
  have left : ∃ finding ∈ Specimen.editor.findings true, finding.isFixable = true := by
    decide +kernel
  refine ⟨fixed, (reports_are_truthful _ _ _ _ _ fixed).1, _, rfl, ?_⟩
  obtain ⟨finding, mem, fixable⟩ := left
  obtain ⟨reported, reached⟩ :=
    (reports_are_truthful Specimen.parser Specimen.editor true 0 _ rfl).2 { maxPasses := 0 } rfl
      finding mem
  exact ⟨finding, mem, reached (reported.mpr fixable), reported.mpr fixable⟩

end Command

end AliasHoist
