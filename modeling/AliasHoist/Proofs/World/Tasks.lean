import AliasHoist.World

/-!
# What tasks come to

The console hears what a task says and never answers.  So what a task comes to, its outcome and the
files it leaves, depends on the files alone, and tasks can be reasoned about as functions of file
systems.

## Main Definitions

* `Task.upshot`: the outcome of a task in a world, with the files that it leaves;
* `Task.on`: the same for a task that starts with nothing said;
* `Task.IsDeaf`: what has been said makes no difference to a task.

## Main Statements

* `on_bind`: one task after another;
* `on_ask`, `on_change`, `on_writeText`: the tasks that work with files.
-/

namespace AliasHoist

namespace Task

variable {ε α β : Type}

/-- **What a task comes to**: its outcome, and the files that it leaves.  What has been
said is left out, so worlds in which the same files are there are not told apart. -/
def upshot (task : Task ε α) (world : World) : Except ε α × FileSystem :=
  match task world with
  | .ok value after => (.ok value, after.files)
  | .error reason after => (.error reason, after.files)

/-- What a task comes to when nothing has been said before.  Statements about tasks are
written with it, since a file system is all that they speak of. -/
def on (task : Task ε α) (fs : FileSystem) : Except ε α × FileSystem := task.upshot { files := fs }

/-- **What has been said makes no difference to a task.**  All tasks of the program are
of this kind.  It is what lets one task be taken after another by what the first one
comes to. -/
def IsDeaf (task : Task ε α) : Prop := ∀ world, task.upshot world = task.on world.files

/-! ## Tasks one after another -/

@[simp] theorem on_pure (value : α) (fs : FileSystem) :
    on (pure value : Task ε α) fs = (.ok value, fs) := rfl

@[simp] theorem on_throw (reason : ε) (fs : FileSystem) :
    on (throw reason : Task ε α) fs = (.error reason, fs) := rfl

theorem upshot_bind (task : Task ε α) (next : α → Task ε β) (world : World) :
    upshot (task >>= next) world =
      match task world with
      | .ok value after => (next value).upshot after
      | .error reason after => (.error reason, after.files) := by
  simp only [upshot, bind, EStateM.bind]
  cases task world <;> rfl

/-- **One task after another.**  The first task may have said something; the next one
does not hear it. -/
theorem on_bind (task : Task ε α) {next : α → Task ε β} (deaf : ∀ value, (next value).IsDeaf)
    (fs : FileSystem) :
    on (task >>= next) fs =
      match task.on fs with
      | (.ok value, after) => (next value).on after
      | (.error reason, after) => (.error reason, after) := by
  rw [on, upshot_bind, on, upshot]
  cases task { files := fs } with
  | ok value after => exact deaf value after
  | error reason after => rfl

/-- A task that succeeds hands its value and its files on to the next one. -/
theorem on_bind_of_ok {task : Task ε α} {next : α → Task ε β}
    (deaf : ∀ value, (next value).IsDeaf) {fs after : FileSystem} {value : α}
    (h : task.on fs = (.ok value, after)) : on (task >>= next) fs = (next value).on after := by
  rw [on_bind task deaf, h]

/-- A task that fails ends the whole, and the next one changes no file. -/
theorem on_bind_of_error {task : Task ε α} {next : α → Task ε β}
    (deaf : ∀ value, (next value).IsDeaf) {fs after : FileSystem} {reason : ε}
    (h : task.on fs = (.error reason, after)) :
    on (task >>= next) fs = (.error reason, after) := by
  rw [on_bind task deaf, h]

/-- A task succeeds when its parts do.  This is how a run is taken apart, from its last
task to its first. -/
theorem on_bind_eq_ok_iff {task : Task ε α} {next : α → Task ε β}
    (deaf : ∀ value, (next value).IsDeaf) {fs after : FileSystem} {value : β} :
    on (task >>= next) fs = (.ok value, after) ↔
      ∃ first middle, task.on fs = (.ok first, middle) ∧
        (next first).on middle = (.ok value, after) := by
  rw [on_bind task deaf]
  rcases task.on fs with ⟨outcome, middle⟩
  cases outcome with
  | ok first => simp [and_assoc]
  | error reason => simp

namespace IsDeaf

@[simp] protected theorem pure (value : α) : IsDeaf (pure value : Task ε α) := fun _ => rfl

@[simp] protected theorem throw (reason : ε) : IsDeaf (throw reason : Task ε α) := fun _ => rfl

protected theorem bind {task : Task ε α} {next : α → Task ε β} (h : task.IsDeaf)
    (h' : ∀ value, (next value).IsDeaf) : IsDeaf (task >>= next) := by
  intro world
  have same := h world
  rw [on_bind task h', ← same, upshot_bind, upshot]
  cases task world with
  | ok value after => exact h' value after
  | error reason after => rfl

end IsDeaf

/-! ## Telling -/

section Telling

variable (fs : FileSystem)

@[simp] theorem on_printText (text : String) :
    (printText text : Task ε Unit).on fs = (.ok (), fs) := rfl

@[simp] theorem on_print (line : String) :
    (print line : Task ε Unit).on fs = (.ok (), fs) := rfl

@[simp] theorem on_notify (notice : Notice) :
    (notify notice : Task ε Unit).on fs = (.ok (), fs) := rfl

@[simp] theorem on_report (line : String) :
    (report line : Task ε Unit).on fs = (.ok (), fs) := rfl

@[simp] theorem on_log (level : LogLevel) (message : String) (values : List (String × String)) :
    (log level message values : Task ε Unit).on fs = (.ok (), fs) := rfl

end Telling

@[simp] theorem isDeaf_printText (text : String) : (printText text : Task ε Unit).IsDeaf :=
  fun _ => rfl

@[simp] theorem isDeaf_print (line : String) : (print line : Task ε Unit).IsDeaf := fun _ => rfl

@[simp] theorem isDeaf_notify (notice : Notice) : (notify notice : Task ε Unit).IsDeaf :=
  fun _ => rfl

@[simp] theorem isDeaf_report (line : String) : (report line : Task ε Unit).IsDeaf := fun _ => rfl

@[simp] theorem isDeaf_log (level : LogLevel) (message : String)
    (values : List (String × String)) : (log level message values : Task ε Unit).IsDeaf :=
  fun _ => rfl

@[simp] theorem isDeaf_logLines (lines : List LogLine) : (logLines lines : Task ε Unit).IsDeaf := by
  induction lines with
  | nil => exact .pure ()
  | cons line rest ih => exact (isDeaf_notify _).bind fun _ => ih

@[simp] theorem on_logLines (lines : List LogLine) (fs : FileSystem) :
    (logLines lines : Task ε Unit).on fs = (.ok (), fs) := by
  induction lines with
  | nil => rfl
  | cons line rest ih =>
      rw [logLines, on_bind_of_ok (fun _ => isDeaf_logLines rest) (on_notify fs _), ih]

/-! ## Working with files -/

section Files

variable {δ : Type} (fs : FileSystem)

@[simp] theorem on_files : (files : Task ε FileSystem).on fs = (.ok fs, fs) := rfl

@[simp] theorem isDeaf_files : (files : Task ε FileSystem).IsDeaf := fun _ => rfl

/-- What is done with the files as they are. -/
theorem upshot_files_bind (next : FileSystem → Task ε α) (world : World) :
    upshot (files >>= next) world = (next world.files).upshot world := rfl

theorem on_files_bind (next : FileSystem → Task ε α) : on (files >>= next) fs = (next fs).on fs :=
  upshot_files_bind next { files := fs }

/-- **What the files tell**, and what becomes of it when they do not.  No file is
changed by a question. -/
theorem on_ask (question : FileSystem → Except δ α) (failure : δ → ε) :
    (ask question failure).on fs = ((question fs).mapError failure, fs) := by
  rw [ask, on_bind_of_ok _ (on_files fs)]
  · cases question fs <;> rfl
  · intro world
    cases question world with
    | ok answer => exact .pure answer
    | error reason => exact .throw (failure reason)

@[simp] theorem isDeaf_ask (question : FileSystem → Except δ α) (failure : δ → ε) :
    (ask question failure).IsDeaf := by
  refine isDeaf_files.bind fun world => ?_
  cases question world with
  | ok answer => exact .pure answer
  | error reason => exact .throw (failure reason)

/-- **Changing files**: they stay as they are when that fails.  A change of this kind is
made as a whole or not at all. -/
theorem on_change (f : FileSystem → Except IoError FileSystem) (failure : IoError → ε) :
    (change f failure).on fs =
      match f fs with
      | .ok after => (.ok (), after)
      | .error reason => (.error (failure reason), fs) := by
  rw [change, on_files_bind]
  cases f fs <;> rfl

@[simp] theorem isDeaf_change (f : FileSystem → Except IoError FileSystem)
    (failure : IoError → ε) : (change f failure).IsDeaf := by
  intro world
  rw [on_change, change, upshot_files_bind]
  cases f world.files <;> rfl

/-- A change that may come to a stop half way: the files are left as they are at that
moment, whether it has failed or not. -/
theorem on_changePartly (f : FileSystem → FileSystem × Except IoError Unit)
    (failure : IoError → ε) :
    (changePartly f failure).on fs = ((f fs).2.mapError failure, (f fs).1) := by
  rw [changePartly, on_files_bind]
  rcases f fs with ⟨after, _ | _⟩ <;> rfl

@[simp] theorem isDeaf_changePartly (f : FileSystem → FileSystem × Except IoError Unit)
    (failure : IoError → ε) : (changePartly f failure).IsDeaf := by
  intro world
  rw [on_changePartly, changePartly, upshot_files_bind]
  rcases f world.files with ⟨after, _ | _⟩ <;> rfl

/-- Directories are made one after another, so some of them may be left behind by a
failure. -/
theorem on_makeDirectories (path : Path) (failure : IoError → ε) :
    (makeDirectories path failure).on fs =
      ((fs.makeDirectories path).2.mapError failure, (fs.makeDirectories path).1) :=
  on_changePartly fs _ failure

@[simp] theorem isDeaf_makeDirectories (path : Path) (failure : IoError → ε) :
    (makeDirectories path failure).IsDeaf :=
  isDeaf_changePartly _ failure

/-- A text is written as a whole, or the files stay as they are. -/
theorem on_writeText (path : Path) (text : String) (failure : IoError → ε) :
    (writeText path text failure).on fs =
      match fs.write path (.text text) with
      | .ok after => (.ok (), after)
      | .error reason => (.error (failure reason), fs) :=
  on_change fs _ failure

@[simp] theorem isDeaf_writeText (path : Path) (text : String) (failure : IoError → ε) :
    (writeText path text failure).IsDeaf :=
  isDeaf_change _ failure

end Files

end Task

end AliasHoist
