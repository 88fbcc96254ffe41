import AliasHoist.Proofs.FileSystem.Agreeing
import AliasHoist.Proofs.World.Tasks

/-!
# A task in two worlds

What a task does in one world can be compared with what it does in another.  Where the same has been
said in both, and their files differ only where the task has nothing to do, it answers the same, says
the same, and leaves worlds that differ no more than before.

## Main Definitions

* `World.Like`: two worlds in which the same has been said;
* `DifferAt`: two file systems that differ at some locations only;
* `Task.Alike`: two results with the same outcome and with worlds that are related;
* `Task.IsSilent`: a task that says nothing.

## Main Statements

* `Task.Alike.bind`: one task after another;
* `Task.alike_ask`, `Task.alike_print`, `Task.alike_log`, `Task.alike_writeText`: the tasks that a
  longer one is made of;
* `Task.IsSilent.eq_ok_of_on`: what a task that says nothing does in a world.
-/

namespace AliasHoist

/-- **Two worlds in which the same has been said**, with files that are related.  What
has been said has to be the same, since a longer task may log in between. -/
structure World.Like (related : FileSystem → FileSystem → Prop) (left right : World) : Prop where
  console_eq : right.console = left.console
  files : related left.files right.files

/-- **Two file systems that differ at some locations only**, and in which paths start
where they start in a given one.  The fixed start lets a condition on paths be stated
once for a whole task. -/
structure DifferAt (start : FileSystem) (touched : Set Location) (left right : FileSystem) :
    Prop where
  directory_eq : left.workingDirectory = start.workingDirectory
  keeps : Keeps touched left right

namespace Task

variable {ε α β : Type} {related related' : World → World → Prop}

/-- **Two results that are alike**: the outcome is the same, and the worlds are related.
Outcomes are equal and not just of one kind, so failures have the same reason. -/
inductive Alike (related : World → World → Prop) :
    EStateM.Result ε World α → EStateM.Result ε World α → Prop where
  | ok {answer : α} {left right : World} (h : related left right) :
      Alike related (.ok answer left) (.ok answer right)
  | error {reason : ε} {left right : World} (h : related left right) :
      Alike related (.error reason left) (.error reason right)

/-- **One task after another**, in two worlds.  The relation may change from the first
task to the second, as when the index is written at the end. -/
theorem Alike.bind {task : Task ε α} {next : α → Task ε β} {left right : World}
    (first : Alike related (task left) (task right))
    (fails : ∀ reason left' right', task left = .error reason left' →
      task right = .error reason right' → related left' right' → related' left' right')
    (later : ∀ answer left' right', task left = .ok answer left' → task right = .ok answer right' →
      related left' right' → Alike related' (next answer left') (next answer right')) :
    Alike related' ((task >>= next) left) ((task >>= next) right) := by
  change Alike related' (EStateM.bind task next left) (EStateM.bind task next right)
  unfold EStateM.bind
  cases hleft : task left <;> cases hright : task right <;> rw [hleft, hright] at first
  · cases first with
    | ok h => exact later _ _ _ hleft hright h
  · cases first
  · cases first
  · cases first with
    | error h => exact .error (fails _ _ _ hleft hright h)

/-- One task after another, where the worlds stay related in the same way.  It is the
usual case. -/
theorem Alike.bind_same {task : Task ε α} {next : α → Task ε β} {left right : World}
    (first : Alike related (task left) (task right))
    (later : ∀ answer left' right', related left' right' →
      Alike related (next answer left') (next answer right')) :
    Alike related ((task >>= next) left) ((task >>= next) right) :=
  first.bind (fun _ _ _ _ _ h => h) fun answer left' right' _ _ h => later answer left' right' h

/-- One task after another, where it is known what the first one does.  Each world may
have its own way to that answer. -/
theorem Alike.of_ok {task : Task ε α} {next : α → Task ε β} {left right left' right' : World}
    {answer : α} (hleft : task left = .ok answer left') (hright : task right = .ok answer right')
    (later : Alike related (next answer left') (next answer right')) :
    Alike related ((task >>= next) left) ((task >>= next) right) := by
  change Alike related (EStateM.bind task next left) (EStateM.bind task next right)
  unfold EStateM.bind
  rw [hleft, hright]
  exact later

/-! ## Single tasks -/

/-- A task that looks at the files goes on with those of the world.  It unfolds the
first line of many tasks. -/
theorem files_bind_apply (next : FileSystem → Task ε α) (world : World) :
    (files >>= next) world = next world.files world := rfl

/-- A change that succeeds leaves the console as it is. -/
theorem change_eq_ok {f : FileSystem → Except IoError FileSystem} {world : World}
    {after : FileSystem} (failure : IoError → ε) (h : f world.files = .ok after) :
    change f failure world = .ok () { world with files := after } := by
  rw [change, files_bind_apply, h]
  rfl

/-- A change that fails leaves the world as it is. -/
theorem change_eq_error {f : FileSystem → Except IoError FileSystem} {world : World}
    {reason : IoError} (failure : IoError → ε) (h : f world.files = .error reason) :
    change f failure world = .error (failure reason) world := by
  rw [change, files_bind_apply, h]
  rfl

section

variable {δ : Type} {agree : FileSystem → FileSystem → Prop} {left right : World}
  (h : World.Like agree left right)
include h

/-- What is said in both worlds.  Printing and logging are of this kind. -/
theorem alike_say (say : Console → Console) :
    Alike (World.Like agree)
      ((modify fun world => { world with console := say world.console } : Task ε Unit) left)
      ((modify fun world => { world with console := say world.console } : Task ε Unit) right) :=
  .ok ⟨congrArg say h.console_eq, h.files⟩

theorem alike_printText (text : String) :
    Alike (World.Like agree) ((printText text : Task ε Unit) left) (printText text right) :=
  alike_say h fun console => { console with output := console.output ++ text }

theorem alike_print (line : String) :
    Alike (World.Like agree) ((print line : Task ε Unit) left) (print line right) :=
  alike_printText h _

theorem alike_log (level : LogLevel) (message : String) (values : List (String × String)) :
    Alike (World.Like agree) ((log level message values : Task ε Unit) left)
      (log level message values right) :=
  alike_say h fun console =>
    { console with notices := console.notices ++ [.log { level, message, values }] }

/-- What the files tell in both worlds.  The answer has to be the same in both, failures
included. -/
theorem alike_ask {question : FileSystem → Except δ α} (failure : δ → ε)
    (same : question right.files = question left.files) :
    Alike (World.Like agree) (ask question failure left) (ask question failure right) := by
  rw [ask, files_bind_apply, files_bind_apply, same]
  cases question left.files with
  | ok answer => exact .ok h
  | error reason => exact .error h

end

/-- **Writing along a path that has nothing to do with the difference.**  It fails in
both worlds for the same reason, or it is done in both. -/
theorem alike_writeText {start : FileSystem} {touched : Set Location} {left right : World}
    (h : World.Like (DifferAt start touched) left right) {path : Path}
    (apart : start.Avoids touched path) (text : String) (failure : IoError → ε) :
    Alike (World.Like (DifferAt start touched)) (writeText path text failure left)
      (writeText path text failure right) := by
  have apart := apart.of_workingDirectory_eq h.files.directory_eq
  rcases h.files.keeps.write_alike apart (.text text) with ⟨reason, hleft, hright⟩ |
    ⟨written, written', hleft, hright, keeps⟩
  · rw [writeText, change_eq_error failure hleft, change_eq_error failure hright]
    exact .error h
  · rw [writeText, change_eq_ok failure hleft, change_eq_ok failure hright]
    have directory := (FileSystem.write_changes hleft).1.workingDirectory_eq
    exact .ok ⟨h.console_eq, directory.trans h.files.directory_eq, keeps⟩

/-! ## The world after a task -/

/-- The world that a task leaves. -/
def worldAfter : EStateM.Result ε World α → World
  | .ok _ world => world
  | .error _ world => world

/-- The files that a task leaves are those that it comes to.  It goes from tasks on
worlds to tasks on files. -/
theorem IsDeaf.files_worldAfter {task : Task ε α} (deaf : task.IsDeaf) (world : World) :
    (worldAfter (task world)).files = (task.on world.files).2 := by
  rw [← deaf world, Task.upshot]
  cases task world <;> rfl

/-- What the files tell leaves the world as it is. -/
theorem ask_eq_ok {δ : Type} {question : FileSystem → Except δ α} {world : World} {answer : α}
    (failure : δ → ε) (h : question world.files = .ok answer) :
    ask question failure world = .ok answer world := by
  rw [ask, files_bind_apply, h]
  rfl

/-- **A task that says nothing.**  Recording a run is such a task, while undoing one is
not. -/
def IsSilent (task : Task ε α) : Prop :=
  ∀ world, (worldAfter (task world)).console = world.console

namespace IsSilent

protected theorem pure (value : α) : IsSilent (pure value : Task ε α) := fun _ => rfl

protected theorem throw (reason : ε) : IsSilent (throw reason : Task ε α) := fun _ => rfl

protected theorem bind {task : Task ε α} {next : α → Task ε β} (h : task.IsSilent)
    (h' : ∀ value, (next value).IsSilent) : IsSilent (task >>= next) := by
  intro world
  have first := h world
  change (worldAfter (EStateM.bind task next world)).console = world.console
  unfold EStateM.bind
  cases hfirst : task world with
  | ok value after =>
      rw [hfirst] at first
      exact (h' value after).trans first
  | error reason after =>
      rw [hfirst] at first
      exact first

/-- **What a task that says nothing does in a world.**  So a statement about files
determines the whole world afterwards. -/
theorem eq_ok_of_on {task : Task ε α} (silent : task.IsSilent) (deaf : task.IsDeaf) {world : World}
    {answer : α} {after : FileSystem} (h : task.on world.files = (.ok answer, after)) :
    task world = .ok answer { world with files := after } := by
  have upshot := deaf world
  have said := silent world
  rw [h, Task.upshot] at upshot
  cases hresult : task world with
  | ok value found =>
      rw [hresult] at upshot said
      obtain ⟨rfl, rfl⟩ : value = answer ∧ found.files = after := by simpa using upshot
      have console : found.console = world.console := said
      rw [← console]
  | error reason found => simp [hresult] at upshot

end IsSilent

theorem isSilent_files : (files : Task ε FileSystem).IsSilent := fun _ => rfl

theorem isSilent_ask {δ : Type} (question : FileSystem → Except δ α) (failure : δ → ε) :
    (ask question failure).IsSilent := by
  refine isSilent_files.bind fun fs => ?_
  cases question fs with
  | ok answer => exact .pure answer
  | error reason => exact .throw (failure reason)

theorem isSilent_change (f : FileSystem → Except IoError FileSystem) (failure : IoError → ε) :
    (change f failure).IsSilent := by
  refine isSilent_files.bind fun fs => ?_
  cases f fs with
  | ok after => exact fun _ => rfl
  | error reason => exact .throw (failure reason)

theorem isSilent_changePartly (f : FileSystem → FileSystem × Except IoError Unit)
    (failure : IoError → ε) : (changePartly f failure).IsSilent := by
  refine isSilent_files.bind fun fs => ?_
  rcases f fs with ⟨after, _ | _⟩
  · exact fun _ => rfl
  · exact fun _ => rfl

end Task

end AliasHoist
