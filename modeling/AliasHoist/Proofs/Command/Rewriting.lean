import AliasHoist.Command.Fix
import AliasHoist.Proofs.Editor.Runs
import AliasHoist.Proofs.Runs.Storing

/-!
# Fixing one file

What becomes of one file of a run.  Whether there is anything to fix in it, and what, is a function of
the files; everything that can go wrong before anything is written is listed once; and a file that is
rewritten in place touches two locations, its own and that of its backup.

## Main Definitions

* `hoisted?`: the fixed source of a file, if there is one;
* `CannotFix`: a file of a known dialect cannot be read, parsed or fixed;
* `changeIn?`: the change to be recorded for a file;
* `rewriteFile`: backing a file up and writing it, without going on after a failure.

## Main Statements

* `on_hoistFile_cases`: fixing the source of a file changes no files and ends in one of three ways;
* `rewriteFile_spec`: what rewriting a file does;
* `on_fixFile_cases`: what fixing a file in place does, in the same three cases.
-/

namespace AliasHoist.Command

open FileSystem

/-! ## What there is to fix -/

section Hoisting

variable (plan : FixPlan) (fs : FileSystem) (path : Path)

/-- **The fixed source of a file**: its text can be read, its dialect is known, it
parses without errors, and at least one fix is applied to it.  Everything that fixing a
file depends on is in it, so "the file is fixed" can be said before anything has been
done. -/
def hoisted? : Option HoistedSource := do
  let dialect ← path.dialect?
  let before ← (fs.readText path).toOption
  let editor ← (Editor.new plan.parse before dialect).toOption
  if editor.hasErrors then none
  else
    let run := editor.fixAll plan.parse plan.config.disambiguateNames plan.config.maxPasses
    let outcome ← run.outcome.toOption
    if outcome.applied = 0 then none else some { before, after := run.editor.content, outcome }

/-- **A file cannot be fixed**: its dialect is known, but it cannot be read or parsed,
or fixing it fails for another reason than syntax errors that it had before.  Syntax
errors are not among the failures: a file with errors is warned about and left alone. -/
inductive CannotFix : Prop where
  | unreadable {dialect : Dialect} {reason : IoError} (known : path.dialect? = some dialect)
      (unread : fs.readText path = .error reason)
  | unparsed {dialect : Dialect} {before : String} {reason : ParseError}
      (known : path.dialect? = some dialect) (read : fs.readText path = .ok before)
      (failed : Editor.new plan.parse before dialect = .error reason)
  | unfixed {dialect : Dialect} {before : String} {editor : Editor} {reason : FixError}
      (known : path.dialect? = some dialect) (read : fs.readText path = .ok before)
      (opened : Editor.new plan.parse before dialect = .ok editor)
      (failed : (editor.fixAll plan.parse plan.config.disambiguateNames
        plan.config.maxPasses).outcome = .error reason)
      (clean : reason ≠ .sourceHasErrors)

/-- The change of a file: the hashes of its content before and after, its backup and the
number of its fixes.  The digest after is that of the intended text, whether or not it
gets written. -/
def changeOf (absolute : Path) (source : HoistedSource) : FileChange where
  path := absolute
  hashBefore := contentDigest (.text source.before)
  hashAfter := contentDigest (.text source.after)
  backup := backupName absolute
  fixesApplied := source.outcome.applied

/-- **The change to be recorded for a file**, if it is rewritten.  It is computed from
the files before the run, and the record of the run turns out to be the list of these.
-/
def changeIn? : Option FileChange := do
  let source ← hoisted? plan fs path
  let absolute ← (fs.canonical path).toOption
  return changeOf absolute source

end Hoisting

variable {plan : FixPlan} {fs after : FileSystem} {path : Path} {recording : Recording}
  {source : HoistedSource} {change : FileChange} {tally : FixTally}

/-- Both depend on the text of the file alone.  This is the one fact that makes files of
a run independent of each other. -/
theorem hoisted?_congr {other : FileSystem} (h : other.readText path = fs.readText path) :
    hoisted? plan other path = hoisted? plan fs path := by
  rw [hoisted?, h, hoisted?]

/-- Once the source has been read and parsed, the run of fixes says whether there is a
fixed one.  It lets a specimen be computed through its editor, without opening the
definition. -/
theorem hoisted?_of_result {dialect : Dialect} {before : String} {editor last : Editor}
    {outcome : FixOutcome} (known : path.dialect? = some dialect)
    (text : fs.readText path = .ok before)
    (opened : Editor.new plan.parse before dialect = .ok editor) (clean : editor.hasErrors = false)
    (fixed : (editor.fixAll plan.parse plan.config.disambiguateNames
      plan.config.maxPasses).result = (last, .ok outcome)) :
    hoisted? plan fs path =
      if outcome.applied = 0 then none else some { before, after := last.content, outcome } := by
  obtain ⟨rfl, ended⟩ := Prod.mk.inj fixed
  simp [hoisted?, known, text, opened, Except.toOption, clean, ended]

/-- Whether a file cannot be fixed depends on its text alone as well. -/
theorem CannotFix.of_readText {other : FileSystem} (failed : CannotFix plan other path)
    (h : other.readText path = fs.readText path) : CannotFix plan fs path := by
  cases failed with
  | unreadable known unread => exact .unreadable known (h ▸ unread)
  | unparsed known read failed => exact .unparsed known (h ▸ read) failed
  | unfixed known read opened failed clean => exact .unfixed known (h ▸ read) opened failed clean

/-- The same in both directions, as an iff. -/
theorem cannotFix_congr {other : FileSystem} (h : other.readText path = fs.readText path) :
    CannotFix plan other path ↔ CannotFix plan fs path :=
  ⟨fun failed => failed.of_readText h, fun failed => failed.of_readText h.symm⟩

/-! ## Fixing the source of a file -/

/-- Reading a source does not depend on what has been said before; the lemmas of this
kind below let `on` speak about files alone. -/
@[simp] theorem isDeaf_readSource (path : Path) : (readSource path).IsDeaf := by
  rw [readSource]
  cases path.dialect? with
  | none => exact (Task.isDeaf_log _ _ _).bind fun _ => .pure _
  | some dialect => exact (Task.isDeaf_ask _ _).bind fun _ => .pure _

@[simp] theorem isDeaf_openEditor (parse : Parser) (path : Path) (content : String)
    (dialect : Dialect) : (openEditor parse path content dialect).IsDeaf := by
  rw [openEditor]
  cases Editor.new parse content dialect with
  | ok editor => exact .pure editor
  | error reason => exact .throw _

@[simp] theorem isDeaf_reportLeft (config : Config) (path : Path) (findings : List Finding) :
    (reportLeft config path findings).IsDeaf := by
  induction findings with
  | nil => exact .pure ()
  | cons finding rest ih => exact (Task.isDeaf_report _).bind fun _ => ih

/-- Telling what is left changes no files. -/
@[simp] theorem on_reportLeft (config : Config) (path : Path) (findings : List Finding)
    (fs : FileSystem) : (reportLeft config path findings).on fs = (.ok (), fs) := by
  induction findings with
  | nil => rfl
  | cons finding rest ih =>
      rw [reportLeft, Task.on_bind_of_ok (fun _ => isDeaf_reportLeft _ _ _) (Task.on_report fs _), ih]

/-- A run of fixes is settled by its outcome, which can so be given to it by hand. -/
theorem isDeaf_settleHoist (plan : FixPlan) (path : Path) (content : String) (run : FixRun) :
    (settleHoist plan path content run).IsDeaf := by
  rw [settleHoist]
  split
  · exact (Task.isDeaf_log _ _ _).bind fun _ => .pure _
  · exact .throw _
  · refine (isDeaf_reportLeft _ _ _).bind fun _ => ?_
    split
    · exact .pure _
    · exact .pure _

theorem isDeaf_hoistSource (plan : FixPlan) (path : Path) (read : Option (String × Dialect)) :
    (hoistSource plan path read).IsDeaf := by
  rcases read with _ | ⟨content, dialect⟩
  · exact .pure none
  · exact (isDeaf_openEditor _ _ _ _).bind fun _ => (Task.isDeaf_logLines _).bind fun _ =>
      isDeaf_settleHoist _ _ _ _

/-- Fixing the source of a file is reading it and then this. -/
theorem hoistFile_eq (plan : FixPlan) (path : Path) :
    hoistFile plan path = readSource path >>= hoistSource plan path :=
  rfl

@[simp] theorem isDeaf_hoistFile (plan : FixPlan) (path : Path) :
    (hoistFile plan path).IsDeaf := by
  rw [hoistFile_eq]
  exact (isDeaf_readSource path).bind (isDeaf_hoistSource plan path)

/-- A file of no known dialect is left alone without being read. -/
theorem on_hoistFile_of_unknown (unknown : path.dialect? = none) :
    (hoistFile plan path).on fs = (.ok none, fs) := by
  have read : (readSource path).on fs = (.ok none, fs) := by
    simp only [readSource, unknown]
    rfl
  rw [hoistFile_eq, Task.on_bind_of_ok (isDeaf_hoistSource plan path) read]
  rfl

/-- A file that cannot be read ends it with a failure that names the file. -/
theorem on_hoistFile_of_unread {dialect : Dialect} {reason : IoError}
    (known : path.dialect? = some dialect) (unread : fs.readText path = .error reason) :
    (hoistFile plan path).on fs = (.error (.readFile path reason), fs) := by
  have read : (readSource path).on fs = (.error (.readFile path reason), fs) := by
    simp only [readSource, known]
    rw [Task.on_bind_of_error fun _ => .pure _]
    rw [Task.on_ask, unread]
    rfl
  rw [hoistFile_eq, Task.on_bind_of_error (isDeaf_hoistSource plan path) read]

variable (plan) in
/-- Once the source has been read, opening the editor decides between a failure and the
fixes. -/
theorem on_hoistFile_of_read {dialect : Dialect} {before : String}
    (known : path.dialect? = some dialect) (text : fs.readText path = .ok before) :
    (hoistFile plan path).on fs =
      match Editor.new plan.parse before dialect with
      | .error reason => (.error (.parseFile path reason), fs)
      | .ok editor =>
          (settleHoist plan path before (editor.fixAll plan.parse
            plan.config.disambiguateNames plan.config.maxPasses)).on fs := by
  have read : (readSource path).on fs = (.ok (some (before, dialect)), fs) := by
    simp only [readSource, known]
    rw [Task.on_bind_of_ok fun _ => .pure _]
    · rfl
    · rw [Task.on_ask, text]
      rfl
  rw [hoistFile_eq, Task.on_bind_of_ok (isDeaf_hoistSource plan path) read, hoistSource,
    Task.on_bind _ fun _ => (Task.isDeaf_logLines _).bind fun _ => isDeaf_settleHoist _ _ _ _,
    openEditor]
  cases Editor.new plan.parse before dialect with
  | error reason => rfl
  | ok editor =>
      rw [Task.on_pure]
      dsimp only
      rw [Task.on_bind_of_ok (fun _ => isDeaf_settleHoist _ _ _ _) (Task.on_logLines _ fs)]

/-- Fixes that succeed give a fixed source, or none if no fix was applied. -/
theorem on_settleHoist_of_ok {content : String} {run : FixRun} {outcome : FixOutcome}
    (h : run.outcome = .ok outcome) :
    (settleHoist plan path content run).on fs =
      (.ok (if outcome.applied = 0 then none
        else some { before := content, after := run.editor.content, outcome }), fs) := by
  rw [settleHoist, h]
  dsimp only
  rw [Task.on_bind_of_ok _ (on_reportLeft plan.config path outcome.remaining fs)]
  · split <;> rfl
  · intro _
    split
    · exact .pure _
    · exact .pure _

/-- Once the source has been read and parsed, only fixing it can fail.  Syntax errors
are excluded on the right because they are treated before. -/
theorem cannotFix_iff_of_opened {dialect : Dialect} {before : String} {editor : Editor}
    (known : path.dialect? = some dialect) (text : fs.readText path = .ok before)
    (opened : Editor.new plan.parse before dialect = .ok editor) :
    CannotFix plan fs path ↔
      ∃ reason, (editor.fixAll plan.parse plan.config.disambiguateNames
        plan.config.maxPasses).outcome = .error reason ∧ reason ≠ .sourceHasErrors := by
  constructor
  · intro failed
    cases failed with
    | unreadable _ unread => simp [text] at unread
    | unparsed known' read failed =>
        obtain rfl := Option.some.inj (known.symm.trans known')
        obtain rfl := Except.ok.inj (text.symm.trans read)
        simp [opened] at failed
    | unfixed known' read opened' failed clean =>
        obtain rfl := Option.some.inj (known.symm.trans known')
        obtain rfl := Except.ok.inj (text.symm.trans read)
        obtain rfl := Except.ok.inj (opened.symm.trans opened')
        exact ⟨_, failed, clean⟩
  · rintro ⟨reason, failed, clean⟩
    exact .unfixed known text opened failed clean

/-- **Fixing the source of a file changes no files and ends in one of three ways**: with
a fixed source, with nothing to fix, or with a failure.  The three cases are told by
`hoisted?` and `CannotFix`, so users never look at how it failed. -/
theorem on_hoistFile_cases (plan : FixPlan) (fs : FileSystem) (path : Path) :
    (∃ source, hoisted? plan fs path = some source ∧ ¬ CannotFix plan fs path ∧
        (hoistFile plan path).on fs = (.ok (some source), fs)) ∨
      (hoisted? plan fs path = none ∧ ¬ CannotFix plan fs path ∧
        (hoistFile plan path).on fs = (.ok none, fs)) ∨
      (hoisted? plan fs path = none ∧ CannotFix plan fs path ∧
        ∃ reason, (hoistFile plan path).on fs = (.error reason, fs)) := by
  cases known : path.dialect? with
  | none =>
      refine Or.inr (Or.inl ⟨by simp [hoisted?, known], ?_, on_hoistFile_of_unknown known⟩)
      rintro (⟨known', _⟩ | ⟨known', _⟩ | ⟨known', _⟩) <;> simp [known] at known'
  | some dialect =>
      cases text : fs.readText path with
      | error reason =>
          exact Or.inr (Or.inr ⟨by simp [hoisted?, known, text, Except.toOption],
            .unreadable known text, _, on_hoistFile_of_unread known text⟩)
      | ok before =>
          have settled := on_hoistFile_of_read plan known text
          cases opened : Editor.new plan.parse before dialect with
          | error reason =>
              exact Or.inr (Or.inr ⟨by simp [hoisted?, known, text, opened, Except.toOption],
                .unparsed known text opened, _, by rw [settled, opened]⟩)
          | ok editor =>
              simp only [opened] at settled
              rw [settled, cannotFix_iff_of_opened known text opened]
              -- only the outcome of the fixes is open now
              cases errors : editor.hasErrors with
              | true =>
                  rw [Editor.fixAll_of_hasErrors plan.parse errors]
                  refine Or.inr (Or.inl ⟨?_, by simp, rfl⟩)
                  simp [hoisted?, known, text, opened, Except.toOption, errors]
              | false =>
                  cases fixed : (editor.fixAll plan.parse plan.config.disambiguateNames
                      plan.config.maxPasses).outcome with
                  | error reason =>
                      have nothing : hoisted? plan fs path = none := by
                        simp [hoisted?, known, text, opened, Except.toOption, fixed]
                      by_cases clean : reason = .sourceHasErrors
                      · subst clean
                        refine Or.inr (Or.inl ⟨nothing, by simp, ?_⟩)
                        rw [settleHoist, fixed]
                        rfl
                      · refine Or.inr (Or.inr ⟨nothing, ⟨reason, rfl, clean⟩,
                          .fixFile path reason, ?_⟩)
                        rw [settleHoist, fixed]
                        cases reason <;> first | rfl | exact absurd rfl clean
                  | ok outcome =>
                      have result := congrArg (Prod.mk (editor.fixAll plan.parse
                        plan.config.disambiguateNames plan.config.maxPasses).editor) fixed
                      rw [on_settleHoist_of_ok fixed,
                        hoisted?_of_result known text opened errors result]
                      by_cases none : outcome.applied = 0
                      · exact Or.inr (Or.inl ⟨if_pos none, by simp, by rw [if_pos none]⟩)
                      · exact Or.inl ⟨_, if_neg none, by simp, by rw [if_neg none]⟩

/-! ## Parts of commands -/

section Parts

variable {α : Type}

/-- A task on runs keeps its effect on files; only its failure is wrapped. -/
theorem on_onRuns (task : Task RunError α) (fs : FileSystem) :
    (onRuns task).on fs = ((task.on fs).1.mapError .run, (task.on fs).2) := by
  simp only [Task.on, Task.upshot, onRuns]
  cases task { files := fs } <;> rfl

theorem isDeaf_onRuns {task : Task RunError α} (deaf : task.IsDeaf) : (onRuns task).IsDeaf := by
  intro world
  rw [on_onRuns, ← deaf world]
  simp only [Task.upshot, onRuns]
  cases task world <;> rfl

/-- A failure that has become a result.  The files are what the failing task has left,
and not what they were before it. -/
theorem on_attempt (task : Task CommandError α) (fs : FileSystem) :
    (attempt task).on fs = (.ok (task.on fs).1, (task.on fs).2) := by
  simp only [Task.on, Task.upshot, attempt]
  cases task { files := fs } <;> rfl

theorem isDeaf_attempt {task : Task CommandError α} (deaf : task.IsDeaf) :
    (attempt task).IsDeaf := by
  intro world
  rw [on_attempt, ← deaf world]
  simp only [Task.upshot, attempt]
  cases task world <;> rfl

end Parts

@[simp] theorem isDeaf_reportFailure (path : Path) (error : CommandError) (tally : FixTally) :
    (reportFailure path error tally).IsDeaf :=
  (Task.isDeaf_log _ _ _).bind fun _ => (Task.isDeaf_report _).bind fun _ => .pure _

@[simp] theorem on_reportFailure (path : Path) (error : CommandError) (tally : FixTally)
    (fs : FileSystem) : (reportFailure path error tally).on fs = (.ok tally.fail, fs) := rfl

@[simp] theorem isDeaf_orReport (path : Path) (tally : FixTally)
    (outcome : Except CommandError Unit) : (orReport path tally outcome).IsDeaf := by
  cases outcome with
  | ok done => exact .pure tally
  | error error => exact isDeaf_reportFailure _ _ _

/-! ## Rewriting a file -/

/-- A file that is there has a canonical form. -/
theorem canonical_of_stat {location : Location} {entry : Entry}
    (h : fs.stat path = .ok (location, entry)) : fs.canonical path = .ok (pathOf location) :=
  canonical_eq_ok_iff.mpr ⟨location, entry, h, rfl⟩

@[simp] theorem isDeaf_backUp (recording : Recording) (path : Path) (source : HoistedSource) :
    (backUp recording path source).IsDeaf :=
  (Task.isDeaf_ask _ _).bind fun _ => (isDeaf_onRuns (isDeaf_saveBackup _ _ _ _)).bind fun _ =>
    .pure _

@[simp] theorem isDeaf_writeInPlace (format : FixFormat) (path : Path) (source : HoistedSource) :
    (writeInPlace format path source).IsDeaf := by
  refine (Task.isDeaf_writeText _ _ _).bind fun _ => (Task.isDeaf_log _ _ _).bind fun _ => ?_
  split
  · exact Task.isDeaf_print _
  · exact .pure _

/-- Writing a source in place is writing its fixed text, and a failure of that changes
nothing. -/
theorem on_writeInPlace (format : FixFormat) (path : Path) (source : HoistedSource)
    (fs : FileSystem) :
    (writeInPlace format path source).on fs =
      match fs.write path (.text source.after) with
      | .error reason => (.error (.writeFile path reason), fs)
      | .ok after => (.ok (), after) := by
  rw [writeInPlace, Task.on_bind, Task.on_writeText]
  · cases fs.write path (.text source.after) with
    | error reason => rfl
    | ok after => cases format <;> rfl
  · intro _
    refine (Task.isDeaf_log _ _ _).bind fun _ => ?_
    split
    · exact Task.isDeaf_print _
    · exact .pure _

/-- **Backing up a source** is keeping its old text under the canonical form of its
path, so two paths of one file share a backup. -/
theorem on_backUp {location : Location} {entry : Entry}
    (hstat : fs.stat path = .ok (location, entry)) :
    (backUp recording path source).on fs =
      match (saveBackup (pathOf location) source.before recording.id recording.state).on fs with
      | (.error reason, middle) => (.error (.run reason), middle)
      | (.ok backup, middle) => (.ok { changeOf (pathOf location) source with backup }, middle) := by
  have resolved : (Task.ask (·.canonical path) (CommandError.resolvePath path)).on fs =
      (.ok (pathOf location), fs) := by
    rw [Task.on_ask, canonical_of_stat hstat]
    rfl
  rw [backUp, Task.on_bind_of_ok ?deaf resolved]
  case deaf => exact fun _ => (isDeaf_onRuns (isDeaf_saveBackup _ _ _ _)).bind fun _ => .pure _
  rw [Task.on_bind _ fun _ => .pure _, on_onRuns]
  rcases (saveBackup (pathOf location) source.before recording.id recording.state).on fs
    with ⟨outcome, middle⟩
  cases outcome <;> rfl

/-- **Backs a file up and writes it**, without going on after a failure.  The program
goes on with the next file after a failure; without that, the two writes can be looked
at by themselves. -/
def rewriteFile (recording : Recording) (format : FixFormat) (path : Path)
    (source : HoistedSource) : Task CommandError FileChange := do
  let change ← backUp recording path source
  writeInPlace format path source
  return change

/-- The two writes, one after the other, as an equation. -/
theorem on_rewriteFile (format : FixFormat) :
    (rewriteFile recording format path source).on fs =
      match (backUp recording path source).on fs with
      | (.error reason, middle) => (.error reason, middle)
      | (.ok change, middle) =>
          match middle.write path (.text source.after) with
          | .error reason => (.error (.writeFile path reason), middle)
          | .ok after => (.ok change, after) := by
  rw [rewriteFile, Task.on_bind _ fun _ => (isDeaf_writeInPlace _ _ _).bind fun _ => .pure _]
  rcases (backUp recording path source).on fs with ⟨outcome, middle⟩
  cases outcome with
  | error reason => rfl
  | ok change =>
      dsimp only
      rw [Task.on_bind _ fun _ => .pure _, on_writeInPlace]
      cases middle.write path (.text source.after) <;> rfl

/-- A file that was rewritten was backed up first, and then written.  It is the
inversion of `on_rewriteFile` for success. -/
theorem on_rewriteFile_eq_ok {format : FixFormat}
    (h : (rewriteFile recording format path source).on fs = (.ok change, after)) :
    ∃ middle, (backUp recording path source).on fs = (.ok change, middle) ∧
      middle.write path (.text source.after) = .ok after := by
  rw [on_rewriteFile] at h
  rcases hbackup : (backUp recording path source).on fs with ⟨outcome, middle⟩
  cases outcome with
  | error reason => simp [hbackup] at h
  | ok found =>
      simp only [hbackup] at h
      cases hwrite : middle.write path (.text source.after) with
      | error reason => simp [hwrite] at h
      | ok written =>
          simp only [hwrite, Prod.mk.injEq, Except.ok.injEq] at h
          obtain ⟨rfl, rfl⟩ := h
          exact ⟨middle, rfl, hwrite⟩

/-- Where nothing goes wrong, a file is backed up and written.  Each hypothesis is one
operation on files, so this is how specimens are run. -/
theorem on_rewriteFile_of_writes {format : FixFormat} {location : Location} {entry : Entry}
    {absolute : Path} {made kept : FileSystem} (hstat : fs.stat path = .ok (location, entry))
    (canonical : pathOf location = absolute)
    (opens : fs.makeDirectories (recording.state.child recording.id) = (made, .ok ()))
    (keeps : made.write ((recording.state.child recording.id).child (backupName absolute))
      (.text source.before) = .ok kept)
    (writes : kept.write path (.text source.after) = .ok after) :
    (rewriteFile recording format path source).on fs = (.ok (changeOf absolute source), after) := by
  rw [on_rewriteFile, on_backUp hstat, on_saveBackup, opens, canonical]
  simp only [keeps, writes]
  rfl

/-- **What rewriting a file does**: the file has its new content, the backup keeps the
old one, and apart from the directory of the run nothing else has changed.  The last
part says that the file could be written all along; it is what undoing the run will
need. -/
theorem rewriteFile_spec {format : FixFormat} {location : Location} {entry : Entry}
    (isRunId : IsRunId recording.id) (hstat : fs.stat path = .ok (location, entry))
    (outside : ¬ fs.placeOf recording.state <+: location)
    (h : (rewriteFile recording format path source).on fs = (.ok change, after)) :
    change = changeOf (pathOf location) source ∧
      IsReady (recording.state.child recording.id) (opened recording.state recording.id fs) ∧
      Changes {location, fs.placeOf recording.state ++ [recording.id, change.backup]} ∅
        (opened recording.state recording.id fs) after ∧
      after.entryAt? location = some (.file (.text source.after) true) ∧
      KeepsBackup recording.state recording.id change.backup source.before after ∧
      ∃ old, entry = .file old true := by
  obtain ⟨middle, hbackup, hwrite⟩ := on_rewriteFile_eq_ok h
  rw [on_backUp hstat] at hbackup
  rcases hsave : (saveBackup (pathOf location) source.before recording.id recording.state).on fs
    with ⟨outcome, kept⟩
  cases outcome with
  | error reason => simp [hsave] at hbackup
  | ok backup =>
      obtain ⟨rfl, ready, first, keeps⟩ := keepsBackup_of_saveBackup isRunId.isPlainName hsave
      simp only [hsave, Prod.mk.injEq, Except.ok.injEq] at hbackup
      obtain ⟨rfl, rfl⟩ := hbackup
      obtain ⟨second, held, _⟩ := write_changes hwrite
      have places : ∀ other, kept.placeOf other = fs.placeOf other := fun other =>
        (first.placeOf other).trans ((opened_changes _ _ fs).placeOf other)
      rw [places, ← eq_placeOf_of_stat hstat] at second held
      have apart : location ∉
          ({fs.placeOf recording.state ++ [recording.id, backupName (pathOf location)]} :
            Set Location) := fun mem => outside (mem ▸ List.prefix_append _ _)
      refine ⟨rfl, ready, ?_, held, keeps.of_changes second ?_, ?_⟩
      · exact (first.mono (by simp) subset_rfl).trans (second.mono (by simp) subset_rfl)
      · rw [places]
        exact fun mem => apart mem.symm
      · have still : kept.stat path = .ok (location, entry) :=
          first.stat ((opened_changes _ _ fs).stat hstat (Set.notMem_empty _)) apart
        obtain ⟨found, located, _, there, _⟩ := write_eq_ok_iff.mp hwrite
        obtain ⟨located', held', _⟩ := stat_eq_ok_iff.mp still
        obtain rfl := Except.ok.inj (located.symm.trans located')
        rcases there with none | ⟨old, hold⟩
        · simp [held'] at none
        · exact ⟨old, Option.some.inj (held'.symm.trans hold)⟩

/-! ## What becomes of a fixed source -/

@[simp] theorem isDeaf_writeOutput (output : Path) (source : HoistedSource) :
    (writeOutput output source).IsDeaf :=
  (Task.isDeaf_writeText _ _ _).bind fun _ => Task.isDeaf_print _

@[simp] theorem isDeaf_deliver (plan : FixPlan) (path : Path) (source : HoistedSource)
    (tally : FixTally) : (deliver plan path source tally).IsDeaf := by
  rw [deliver]
  cases plan.delivery with
  | dryRun => exact (Task.isDeaf_printText _).bind fun _ => .pure _
  | toFile output =>
      exact (isDeaf_attempt (isDeaf_writeOutput _ _)).bind fun _ => isDeaf_orReport _ _ _
  | inPlace recording =>
      refine (isDeaf_attempt (isDeaf_backUp _ _ _)).bind fun outcome => ?_
      cases outcome with
      | error error => exact isDeaf_reportFailure _ _ _
      | ok change =>
          exact (isDeaf_attempt (isDeaf_writeInPlace _ _ _)).bind fun _ => isDeaf_orReport _ _ _

/-- A dry run changes nothing, and its tally counts the fixes all the same. -/
theorem on_deliver_dryRun (dryRun : plan.delivery = .dryRun) :
    (deliver plan path source tally).on fs = (.ok tally, fs) := by
  simp only [deliver, dryRun]
  rfl

/-- **In place, the change is recorded once the backup is kept**, whether or not writing
the file succeeds.  So a file that could not be written is in the record, with the
digest of a text that it does not have. -/
theorem on_deliver_inPlace (inPlace : plan.delivery = .inPlace recording) :
    (deliver plan path source tally).on fs =
      match (backUp recording path source).on fs with
      | (.error _, middle) => (.ok tally.fail, middle)
      | (.ok change, middle) =>
          match middle.write path (.text source.after) with
          | .error _ => (.ok (tally.record change).fail, middle)
          | .ok after => (.ok (tally.record change), after) := by
  simp only [deliver, inPlace]
  rw [Task.on_bind, on_attempt]
  · rcases (backUp recording path source).on fs with ⟨outcome, middle⟩
    cases outcome with
    | error reason => exact on_reportFailure _ _ _ _
    | ok change =>
        dsimp only
        rw [Task.on_bind _ fun _ => isDeaf_orReport _ _ _, on_attempt, on_writeInPlace]
        cases middle.write path (.text source.after) <;> rfl
  · intro outcome
    cases outcome with
    | error error => exact isDeaf_reportFailure _ _ _
    | ok change =>
        exact (isDeaf_attempt (isDeaf_writeInPlace _ _ _)).bind fun _ => isDeaf_orReport _ _ _

/-- Where rewriting a file succeeds, so does delivering its fixed source.  It covers the
case without failures, which is all that most statements about runs need. -/
theorem on_deliver_of_rewriteFile (inPlace : plan.delivery = .inPlace recording)
    (h : (rewriteFile recording plan.format path source).on fs = (.ok change, after)) :
    (deliver plan path source tally).on fs = (.ok (tally.record change), after) := by
  obtain ⟨middle, hbackup, hwrite⟩ := on_rewriteFile_eq_ok h
  rw [on_deliver_inPlace inPlace]
  simp only [hbackup, hwrite]

/-! ## Fixing a file -/

theorem isDeaf_settleFile (plan : FixPlan) (tally : FixTally) (path : Path)
    (outcome : Except CommandError (Option HoistedSource)) :
    (settleFile plan tally path outcome).IsDeaf := by
  rcases outcome with _ | _ | source
  · exact isDeaf_reportFailure _ _ _
  · exact .pure tally
  · exact (Task.isDeaf_printText _).bind fun _ => isDeaf_deliver _ _ _ _

/-- Fixing a file is fixing its source, and settling what came of it. -/
theorem fixFile_eq (plan : FixPlan) (tally : FixTally) (path : Path) :
    fixFile plan tally path = attempt (hoistFile plan path) >>= settleFile plan tally path :=
  rfl

@[simp] theorem isDeaf_fixFile (plan : FixPlan) (tally : FixTally) (path : Path) :
    (fixFile plan tally path).IsDeaf := by
  rw [fixFile_eq]
  exact (isDeaf_attempt (isDeaf_hoistFile plan path)).bind (isDeaf_settleFile plan tally path)

/-- **Fixing a file goes one of three ways**: it is delivered, left alone, or counted as
a failure.  A failure does not end the run: it adds to the tally, and the next file
follows. -/
theorem on_fixFile_cases (plan : FixPlan) (tally : FixTally) (path : Path) (fs : FileSystem) :
    (∃ source, hoisted? plan fs path = some source ∧ ¬ CannotFix plan fs path ∧
        (fixFile plan tally path).on fs =
          (deliver plan path source (tally.count plan.format source)).on fs) ∨
      (hoisted? plan fs path = none ∧ ¬ CannotFix plan fs path ∧
        (fixFile plan tally path).on fs = (.ok tally, fs)) ∨
      (hoisted? plan fs path = none ∧ CannotFix plan fs path ∧
        (fixFile plan tally path).on fs = (.ok tally.fail, fs)) := by
  rw [fixFile_eq, Task.on_bind _ (isDeaf_settleFile plan tally path), on_attempt]
  rcases on_hoistFile_cases plan fs path with
    ⟨source, hoists, fixable, h⟩ | ⟨nothing, fixable, h⟩ | ⟨nothing, unfixable, reason, h⟩
  · refine Or.inl ⟨source, hoists, fixable, ?_⟩
    rw [h]
    exact Task.on_bind_of_ok (fun _ => isDeaf_deliver _ _ _ _) (Task.on_printText fs _)
  · refine Or.inr (Or.inl ⟨nothing, fixable, ?_⟩)
    rw [h]
    rfl
  · refine Or.inr (Or.inr ⟨nothing, unfixable, ?_⟩)
    rw [h]
    rfl

/-- A file with a fixed source is delivered. -/
theorem on_fixFile_of_hoisted (tally : FixTally) (hoists : hoisted? plan fs path = some source) :
    (fixFile plan tally path).on fs =
      (deliver plan path source (tally.count plan.format source)).on fs := by
  rcases on_fixFile_cases plan tally path fs with ⟨found, hfound, _, h⟩ | ⟨nothing, _⟩ | ⟨nothing, _⟩
  · obtain rfl := Option.some.inj (hoists.symm.trans hfound)
    exact h
  · simp [hoists] at nothing
  · simp [hoists] at nothing

/-- A file that cannot be fixed is counted, and its run records nothing for it. -/
theorem on_fixFile_of_cannotFix (tally : FixTally) (unfixable : CannotFix plan fs path) :
    hoisted? plan fs path = none ∧ (fixFile plan tally path).on fs = (.ok tally.fail, fs) := by
  rcases on_fixFile_cases plan tally path fs with ⟨_, _, fixable, _⟩ | ⟨_, fixable, _⟩ | ⟨nothing, _, h⟩
  · exact absurd unfixable fixable
  · exact absurd unfixable fixable
  · exact ⟨nothing, h⟩

end AliasHoist.Command
