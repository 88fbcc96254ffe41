import AliasHoist.Proofs.Runs.Forgetting
import AliasHoist.Runs.History
import Mathlib.Logic.Relation

/-!
# The index and the files of runs stay in step

Recording, undoing and forgetting runs each update the files of runs and the index, one after the other
and with early exits.  Here is what holds after any number of such steps.

Two things could set the index and the files apart, and both are left out: an identifier that leads to a
file outside the state directory, which then is recorded inside it, and a source that is itself a
record, which is then overwritten by its backup.

## Main Definitions

* `RecordStep`: what can happen to the records of runs;
* `IndexAgrees`: the index and the files of runs agree.

## Main Statements

* `KeptInStep.of_revertRun`: runs stay in step when one of them is undone;
* `KeptInStep.of_step`, `KeptInStep.of_steps`: runs stay in step;
* `runs_stay_in_step`: from an empty state directory on, the index and the files agree, and a run that
  has been undone stays so;
* `runs_set_apart`: an identifier that leads out, and a source that is a record.
-/

namespace AliasHoist

open FileSystem

variable {fs after : FileSystem} {state : Path} {name id : String} {run : Run}
  {runs : List Run}

/-! ## Undoing a run -/

/-- One step of bringing contents back, as an equation.  A source that cannot be brought
back ends it, and those before it stay as they were brought back. -/
theorem on_restoreAll_cons (id : String) (state : Path) (change : FileChange)
    (rest : List FileChange) (fs : FileSystem) :
    (restoreAll id state (change :: rest)).on fs =
      match (restoreBackup change id state).on fs with
      | (.error reason, middle) => (.error reason, middle)
      | (.ok (), middle) => (restoreAll id state rest).on middle := by
  rw [restoreAll, Task.on_bind _ fun _ => (Task.isDeaf_print _).bind fun _ =>
    isDeaf_restoreAll _ _ _]
  rcases (restoreBackup change id state).on fs with ⟨_ | _, middle⟩
  · rfl
  · dsimp only
    rw [Task.on_bind_of_ok (fun _ => isDeaf_restoreAll _ _ _) (Task.on_print middle _)]

/-- Bringing a content back writes its source, if it writes anything.  No directory is
made, so a source whose directory has gone cannot be brought back. -/
theorem restoreBackup_changes (change : FileChange) (id : String) (state : Path)
    (fs : FileSystem) :
    Changes {fs.placeOf change.path} ∅ fs ((restoreBackup change id state).on fs).2 := by
  rw [on_restoreBackup]
  cases fs.readText ((state.child id).child change.backup) with
  | error reason => exact .refl fs
  | ok text =>
      dsimp only
      cases hwrite : fs.write change.path (.text text) with
      | error reason => exact .refl fs
      | ok written => exact (write_changes hwrite).1

/-- **Bringing contents back writes sources only**, whatever comes of it.  An induction
on the changes with `restoreBackup_changes` as its step; the places do not move, since
the working directory does not. -/
theorem restoreAll_changes (id : String) (state : Path) (changes : List FileChange)
    (fs : FileSystem) :
    Changes {location | ∃ change ∈ changes, location = fs.placeOf change.path} ∅ fs
      ((restoreAll id state changes).on fs).2 := by
  induction changes generalizing fs with
  | nil => exact .refl fs
  | cons change rest ih =>
      have first : Changes {location | ∃ other ∈ change :: rest, location = fs.placeOf other.path} ∅
          fs ((restoreBackup change id state).on fs).2 := by
        refine (restoreBackup_changes change id state fs).mono ?_ subset_rfl
        rintro location rfl
        exact ⟨change, List.mem_cons_self, rfl⟩
      rw [on_restoreAll_cons]
      rcases hfirst : (restoreBackup change id state).on fs with ⟨_ | _, middle⟩
      · rw [hfirst] at first
        exact first
      · rw [hfirst] at first
        refine first.trans ((ih middle).mono ?_ subset_rfl)
        rintro location ⟨other, mem, rfl⟩
        exact ⟨other, List.mem_cons_of_mem _ mem, first.placeOf other.path⟩

/-- What undoing a run does once it has been found that it can be: contents first,
records last.  So a run is marked only when all its sources have been brought back. -/
theorem on_undoRun_eq (id : String) (state : Path) (run : Run) (fs : FileSystem) :
    (undoRun id state run).on fs =
      match (restoreAll id state run.changes).on fs with
      | (.error reason, middle) => (.error reason, middle)
      | (.ok (), middle) => (run.undone.save state).on middle := by
  have deaf : (run.undone.save state >>= fun _ => Task.log .info "run reverted"
      [("run_id", Text.quoted id), ("files", toString run.changes.length)] >>= fun _ =>
        Task.print ("✓ Run " ++ id ++ " reverted successfully")).IsDeaf :=
    (Run.isDeaf_save _ _).bind fun _ => (Task.isDeaf_log _ _ _).bind fun _ => Task.isDeaf_print _
  rw [undoRun, Task.on_bind_of_ok (fun _ => (isDeaf_restoreAll _ _ _).bind fun _ => deaf)
    (Task.on_print fs _), Task.on_bind _ fun _ => deaf]
  rcases (restoreAll id state run.changes).on fs with ⟨_ | _, middle⟩
  · rfl
  · dsimp only
    rw [Task.on_bind _ fun _ => (Task.isDeaf_log _ _ _).bind fun _ => Task.isDeaf_print _]
    rcases (run.undone.save state).on middle with ⟨_ | _, after⟩ <;> rfl

/-- **What undoing a run does**: nothing, when the run is not found or cannot be undone;
or else its contents are brought back and it is marked.  It is the one place where the
task is opened; everything below goes through this equation or the case distinction that
follows. -/
theorem on_revertRun (id : String) (force : Bool) (state : Path) (fs : FileSystem) :
    (revertRun id force state).on fs =
      match Run.load id state fs with
      | .error reason => (.error reason, fs)
      | .ok run =>
          match checkRevertible run id force fs with
          | .error reason => (.error reason, fs)
          | .ok () => (undoRun id state run).on fs := by
  rw [revertRun_eq, Task.on_bind _ fun _ => (Task.isDeaf_ask _ _).bind fun _ =>
    isDeaf_undoRun _ _ _, Task.on_ask]
  cases Run.load id state fs with
  | error reason => rfl
  | ok run =>
      simp only [Except.mapError]
      rw [Task.on_bind _ fun _ => isDeaf_undoRun _ _ _, Task.on_ask]
      cases checkRevertible run id force fs <;> rfl

/-- A run that is found and can be undone is undone.  What is checked and what is then
done look at the same files. -/
theorem on_revertRun_of_revertible {force : Bool} (loaded : Run.load id state fs = .ok run)
    (revertible : checkRevertible run id force fs = .ok ()) :
    (revertRun id force state).on fs = (undoRun id state run).on fs := by
  rw [on_revertRun, loaded]
  simp only [revertible]

/-- Once its contents have been brought back, it is recorded anew.  Whether the undoing
succeeds is then a matter of the records alone. -/
theorem on_revertRun_of_restored {force : Bool} {middle : FileSystem}
    (loaded : Run.load id state fs = .ok run)
    (revertible : checkRevertible run id force fs = .ok ())
    (restored : (restoreAll id state run.changes).on fs = (.ok (), middle)) :
    (revertRun id force state).on fs = (run.undone.save state).on middle := by
  rw [on_revertRun_of_revertible loaded revertible, on_undoRun_eq, restored]

/-- **Either nothing changes, or the run is undone.**  In the first case undoing has
failed, and the reason is one that was found before anything was written. -/
theorem on_revertRun_cases (id : String) (force : Bool) (state : Path) (fs : FileSystem) :
    (∃ reason, (revertRun id force state).on fs = (.error reason, fs)) ∨
      ∃ run, Run.load id state fs = .ok run ∧ checkRevertible run id force fs = .ok () ∧
        (revertRun id force state).on fs = (undoRun id state run).on fs := by
  cases loaded : Run.load id state fs with
  | error reason => exact .inl ⟨reason, by rw [on_revertRun, loaded]⟩
  | ok run =>
      cases revertible : checkRevertible run id force fs with
      | error reason => exact .inl ⟨reason, by simp only [on_revertRun, loaded, revertible]⟩
      | ok done =>
          exact .inr ⟨run, rfl, revertible, on_revertRun_of_revertible loaded revertible⟩

/-- A run that has been undone cannot be undone.  Forcing it makes no difference to
this: the force is for changed sources only. -/
theorem status_ne_reverted {force : Bool} (revertible : checkRevertible run id force fs = .ok ()) :
    run.status ≠ .reverted := by
  intro reverted
  simp [checkRevertible, reverted] at revertible

/-- **Runs stay in step when one of them is undone**, as far as that gets.  The run
under the identifier is replaced by the undone one if it gets as far as the records, and
otherwise all runs are as before; either way identifiers and their order stay. -/
theorem KeptInStep.of_revertRun (h : KeptInStep state runs fs) (within : NamesRecord state id fs)
    {force : Bool} (writes : WritesRecords ((revertRun id force state).on fs).1) :
    ∃ next, KeptInStep state next ((revertRun id force state).on fs).2 ∧
      next.map (·.id) = runs.map (·.id) ∧
      ∀ run ∈ next, run ∈ runs ∨ ∃ old ∈ runs, run = old.undone := by
  rcases on_revertRun_cases id force state fs with ⟨reason, failed⟩ | ⟨run, loaded, -, undoes⟩
  · rw [failed]
    exact ⟨runs, h, rfl, fun run mem => .inl mem⟩
  · obtain ⟨mem, -⟩ := h.mem_of_load within loaded
    have keepable := h.keepable run mem
    have changes := restoreAll_changes id state run.changes fs
    rw [undoes, on_undoRun_eq] at writes ⊢
    rcases hrestore : (restoreAll id state run.changes).on fs with ⟨outcome, middle⟩
    rw [hrestore] at changes writes
    have keeps := Keeps.of_changes changes
    have still : KeptInStep state runs middle := by
      refine h.of_keeps keeps (h.ready.of_changes changes) fun name there => ?_
      obtain ⟨change, hchange, same⟩ | there := there
      · exact keepable.sources change hchange name same.symm
      · exact there
    cases outcome with
    | error reason => exact ⟨runs, still, rfl, fun run mem => .inl mem⟩
    | ok done =>
        obtain ⟨earlier, later, rfl⟩ := List.append_of_mem mem
        dsimp only at writes ⊢
        refine ⟨earlier ++ run.undone :: later, still.of_saved_again (keepable.undone.of_keeps keeps)
          rfl rfl writes, by simp [Run.undone], fun other hother => ?_⟩
        rcases List.mem_append.mp hother with front | back
        · exact .inl (by simp [front])
        · rcases List.mem_cons.mp back with rfl | back
          · exact .inr ⟨run, mem, rfl⟩
          · exact .inl (by simp [back])

/-- **Undoing a run leaves all backups**, whatever comes of it, if no source is in the
state directory.  Sources are the only files outside the records that undoing writes. -/
theorem KeptInStep.revertRun_keeps (h : KeptInStep state runs fs) (within : NamesRecord state id fs)
    (outside : ∀ run ∈ runs, ∀ change ∈ run.changes,
      ¬ fs.placeOf state <+: fs.placeOf change.path) (force : Bool) :
    Keeps (outsideBackups (fs.placeOf state) runs) fs ((revertRun id force state).on fs).2 := by
  rcases on_revertRun_cases id force state fs with ⟨reason, failed⟩ | ⟨run, loaded, -, undoes⟩
  · rw [failed]
    exact .refl fs
  · obtain ⟨mem, -⟩ := h.mem_of_load within loaded
    have changes := restoreAll_changes id state run.changes fs
    rw [undoes, on_undoRun_eq]
    rcases hrestore : (restoreAll id state run.changes).on fs with ⟨outcome, middle⟩
    rw [hrestore] at changes
    have keeps : Keeps (outsideBackups (fs.placeOf state) runs) fs middle := by
      refine (Keeps.of_changes changes).mono ?_
      rintro location (⟨change, hchange, rfl⟩ | there)
      · intro other _ below
        exact outside run mem change hchange ((List.prefix_append _ _).trans below)
      · exact absurd there (Set.notMem_empty _)
    cases outcome with
    | error reason => exact keeps
    | ok done =>
        have isRunId : IsRunId run.undone.id := (h.keepable run mem).isRunId
        have recorded := Run.save_changes (h.ready.of_changes changes) run.undone isRunId
        refine keeps.trans ((Keeps.of_changes recorded).mono ?_)
        rw [Set.union_empty, changes.placeOf]
        exact recordSlots_subset_outsideBackups (fun other hother => (h.keepable other hother).isRunId) _

/-- Listing runs that are in step changes nothing.  An index in step can be read, so
none is moved aside. -/
theorem KeptInStep.on_showHistory (h : KeptInStep state runs fs) (limit : Nat) :
    ((showHistory limit state).on fs).2 = fs := by
  rw [showHistory, Task.on_bind_of_ok (fun _ => Task.isDeaf_printText _)
    (RunIndex.on_loadOrReset h.load_index)]
  rfl

/-! ## Steps -/

/-- **What can happen to the records of runs.**  The identifiers that have been given so far are kept,
because a new run gets a new one. -/
inductive RecordStep (state : Path) : List String × FileSystem → List String × FileSystem → Prop where
  /-- A new run is recorded.  None of its sources is a record. -/
  | save {used : List String} {fs : FileSystem} (run : Run) (isRunId : IsRunId run.id)
      (fresh : run.id ∉ used) (storable : run.isStorable = true)
      (applied : run.status = .applied) (canRevert : run.canRevert = true)
      (sources : ∀ change ∈ run.changes, ∀ name,
        fs.placeOf change.path ≠ fs.placeOf state ++ [name ++ ".json"])
      (writes : WritesRecords ((run.save state).on fs).1) :
      RecordStep state (used, fs) (run.id :: used, ((run.save state).on fs).2)
  /-- Any run is undone, or not, under an identifier that does not lead out of the state directory. -/
  | revert {used : List String} {fs : FileSystem} (id : String) (force : Bool)
      (within : NamesRecord state id fs)
      (writes : WritesRecords ((revertRun id force state).on fs).1) :
      RecordStep state (used, fs) (used, ((revertRun id force state).on fs).2)
  /-- Old runs are forgotten. -/
  | clean {used : List String} {fs : FileSystem} (keepDays : Nat) (now : Timestamp)
      (writes : WritesRecords ((cleanRuns keepDays now state).on fs).1) :
      RecordStep state (used, fs) (used, ((cleanRuns keepDays now state).on fs).2)
  /-- The latest runs are listed. -/
  | history {used : List String} {fs : FileSystem} (limit : Nat) :
      RecordStep state (used, fs) (used, ((showHistory limit state).on fs).2)
  /-- Something else happens, as when sources are edited and backups kept, but not to the records. -/
  | elsewhere {used : List String} {fs after : FileSystem} (ready : IsReady state after)
      (keeps : Keeps {location | ∀ name, location ≠ fs.placeOf state ++ [name ++ ".json"]} fs after) :
      RecordStep state (used, fs) (used, after)

/-- **A step keeps runs in step**, and a run that was there is still the same or has
been undone.  The last part is what the second half of the theorem needs: no step makes
a run that has been undone look as if it had not. -/
theorem KeptInStep.of_step {used used' : List String} (h : KeptInStep state runs fs)
    (known : runs.map (·.id) ⊆ used) (step : RecordStep state (used, fs) (used', after)) :
    ∃ next, KeptInStep state next after ∧ next.map (·.id) ⊆ used' ∧ used ⊆ used' ∧
      ∀ run ∈ next, run ∈ runs ∨ run.status = .reverted ∨ run.id ∉ used := by
  cases step with
  | save run isRunId fresh storable applied canRevert sources writes =>
      have keepable : IsKeepable state run fs :=
        ⟨isRunId, storable, by simp [applied, canRevert], sources⟩
      have new : run.id ∉ runs.map (·.id) := fun mem => fresh (known mem)
      refine ⟨runs ++ [run], h.of_saved_new keepable new rfl writes, ?_,
        List.subset_cons_self _ _, fun other mem => ?_⟩
      · intro id mem
        rw [List.map_append, List.mem_append] at mem
        rcases mem with old | same
        · exact List.mem_cons_of_mem _ (known old)
        · exact List.mem_cons.mpr (.inl (List.mem_singleton.mp same))
      · rcases List.mem_append.mp mem with old | same
        · exact .inl old
        · obtain rfl := List.mem_singleton.mp same
          exact .inr (.inr fresh)
  | revert id force within writes =>
      obtain ⟨next, inStep, ids, undone⟩ := h.of_revertRun within writes
      refine ⟨next, inStep, ids ▸ known, List.Subset.refl _, fun run mem => ?_⟩
      rcases undone run mem with same | ⟨old, -, rfl⟩
      · exact .inl same
      · exact .inr (.inl rfl)
  | clean keepDays now writes =>
      obtain ⟨kept, inStep, sublist, -⟩ := h.of_cleanRuns writes
      exact ⟨kept, inStep, List.Subset.trans (sublist.map _).subset known, List.Subset.refl _,
        fun run mem => .inl (sublist.subset mem)⟩
  | history limit =>
      rw [h.on_showHistory]
      exact ⟨runs, h, known, List.Subset.refl _, fun run mem => .inl mem⟩
  | elsewhere ready keeps =>
      refine ⟨runs, h.of_keeps keeps ready fun name apart => apart name rfl, known,
        List.Subset.refl _, fun run mem => .inl mem⟩

/-- **Runs stay in step whatever happens.**  The three facts about a step compose:
identifiers only grow, and a run that is unchanged or undone after each step is so after
all. -/
theorem KeptInStep.of_steps {start finish : List String × FileSystem}
    (steps : Relation.ReflTransGen (RecordStep state) start finish) (h : KeptInStep state runs start.2)
    (known : runs.map (·.id) ⊆ start.1) :
    ∃ next, KeptInStep state next finish.2 ∧ next.map (·.id) ⊆ finish.1 ∧ start.1 ⊆ finish.1 ∧
      ∀ run ∈ next, run ∈ runs ∨ run.status = .reverted ∨ run.id ∉ start.1 := by
  induction steps with
  | refl => exact ⟨runs, h, known, List.Subset.refl _, fun run mem => .inl mem⟩
  | tail _ step ih =>
      obtain ⟨middle, inStep, ids, grown, kept⟩ := ih
      obtain ⟨next, inStep', ids', grown', kept'⟩ := inStep.of_step ids step
      refine ⟨next, inStep', ids', List.Subset.trans grown grown', fun run mem => ?_⟩
      rcases kept' run mem with old | undone | new
      · exact kept run old
      · exact .inr (.inl undone)
      · exact .inr (.inr fun mem => new (grown mem))

/-- **A run that has been undone cannot be undone again**, under whatever spelling of
its identifier.  An identifier can be spelled in several ways, such as `./x` for `x`;
what counts is the file that it leads to. -/
theorem KeptInStep.revertRun_fails (h : KeptInStep state runs fs)
    (undone : ∀ run ∈ runs, run.id = id → run.status = .reverted)
    (spelt : fs.placeOf (runFile name state) = fs.placeOf state ++ [id ++ ".json"]) (force : Bool) :
    ∃ reason, (revertRun name force state).on fs = (.error reason, fs) := by
  rcases on_revertRun_cases name force state fs with failed | ⟨run, loaded, revertible, -⟩
  · exact failed
  · obtain ⟨mem, place⟩ := h.mem_of_load (fun _ => ⟨_, spelt⟩) loaded
    have same : run.id = id := by
      by_contra ne
      exact json_ne_json ne (by simpa using place.symm.trans spelt)
    exact absurd (undone run mem same) (status_ne_reverted revertible)

/-! ## Agreement -/

/-- What is found in the index of some runs is one of them.  Entries of such an index
are under the identifiers of their runs, so searching it is searching the runs. -/
theorem RunIndex.mem_of_find?_ofRuns (h : (RunIndex.ofRuns runs).find? id = some run) :
    run ∈ runs ∧ run.id = id := by
  obtain ⟨before, after, same, -⟩ := List.lookup_eq_some_iff.mp h
  have mem : (id, run) ∈ (RunIndex.ofRuns runs).runs := by simp [same]
  obtain ⟨found, hfound, same⟩ := List.mem_map.mp mem
  obtain ⟨rfl, rfl⟩ := Prod.mk.inj same
  exact ⟨hfound, rfl⟩

/-- **A directory with nothing in it.**  Nothing is said about what is outside, where
sources and files of any name may be. -/
structure IsEmptyDirectory (state : Path) (fs : FileSystem) : Prop where
  ready : IsReady state fs
  empty : ∀ location, fs.placeOf state <+: location → location ≠ fs.placeOf state →
    fs.entryAt? location = none

/-- **An empty directory is in step**, with no runs and without an index. -/
theorem IsEmptyDirectory.inStep (h : IsEmptyDirectory state fs) : KeptInStep state [] fs where
  ready := h.ready
  direct := isDirect_of_empty h.ready.leads h.empty
  keepable := by simp
  nodup := by simp
  records := by simp
  others name _ _ := h.empty _ (List.prefix_append _ _) (by simp)
  index := .inl ⟨rfl, h.empty _ (List.prefix_append _ _) (by simp)⟩

/-- **The index and the files of runs agree**: the index can be read; it has one run
under each identifier, which is the run's own and under which the run is found in its
file; every file that could be that of a run is listed; and the marks of every run
agree.  It is `KeptInStep` as seen from outside, by reading: nothing in it mentions how
records are written. -/
structure IndexAgrees (state : Path) (index : RunIndex) (fs : FileSystem) : Prop where
  loaded : RunIndex.load state fs = .ok index
  nodup : (index.runs.map (·.1)).Nodup
  filed : ∀ entry ∈ index.runs, entry.2.id = entry.1 ∧ Run.load entry.1 state fs = .ok entry.2
  listed : ∀ name, name ≠ "runs" →
    (fs.entryAt? (fs.placeOf state ++ [name ++ ".json"])).isSome = true →
      name ∈ index.runs.map (·.1)
  marked : ∀ entry ∈ index.runs, entry.2.status = .reverted ↔ entry.2.canRevert = false

/-- **Runs that are in step agree with the index** when both are read back. -/
theorem KeptInStep.agrees (h : KeptInStep state runs fs) : IndexAgrees state (.ofRuns runs) fs where
  loaded := h.load_index
  nodup := h.isStorable_ofRuns.nodup
  filed entry mem := by
    obtain ⟨run, hrun, rfl⟩ := List.mem_map.mp mem
    exact ⟨rfl, h.load hrun⟩
  listed name ne there := by
    rw [RunIndex.keys_ofRuns]
    by_contra fresh
    rw [h.others name ne fresh] at there
    contradiction
  marked entry mem := by
    obtain ⟨run, hrun, rfl⟩ := List.mem_map.mp mem
    exact (h.keepable run hrun).marked

/-- **The index and the files of runs stay in step.**  From an empty state directory on, whatever runs are
recorded, undone under identifiers that do not lead out of the directory, forgotten and listed, the
index and the files of runs agree; and once a run has been undone, undoing it again fails and changes no
file. -/
theorem runs_stay_in_step (state : Path) (start : FileSystem) (now : List String × FileSystem)
    (empty : IsEmptyDirectory state start)
    (steps : Relation.ReflTransGen (RecordStep state) ([], start) now) :
    ∃ index, IndexAgrees state index now.2 ∧
      ∀ id run, index.find? id = some run → run.status = .reverted →
        ∀ later, Relation.ReflTransGen (RecordStep state) now later → ∀ name force,
          later.2.placeOf (runFile name state) = later.2.placeOf state ++ [id ++ ".json"] →
            ∃ reason, (revertRun name force state).on later.2 = (.error reason, later.2) := by
  obtain ⟨runs, inStep, known, -, -⟩ := KeptInStep.of_steps steps empty.inStep (by simp)
  refine ⟨.ofRuns runs, inStep.agrees, ?_⟩
  intro id run found reverted later further name force spelt
  obtain ⟨next, inStep', -, -, kept⟩ := KeptInStep.of_steps further inStep known
  obtain ⟨mem, rfl⟩ := RunIndex.mem_of_find?_ofRuns found
  refine inStep'.revertRun_fails (fun other hother same => ?_) spelt force
  rcases kept other hother with old | undone | new
  · obtain rfl := List.inj_on_of_nodup_map inStep.nodup old mem same
    exact reverted
  · exact undone
  · exact absurd (known (List.mem_map_of_mem mem)) (same ▸ new)

/-! ## Specimens -/

namespace Specimen

/-- A state directory. -/
def records : Path := { text := "/s" }

/-- A run with nothing to bring back, under a given identifier. -/
def emptyRun (id : String) : Run where
  id := id
  time := { seconds := 0, nanos := 0 }
  command := ""
  rule := ""
  changes := []
  status := .applied
  canRevert := true

/-- It can be stored, whatever its identifier is. -/
theorem isStorable_emptyRun (id : String) : (emptyRun id).isStorable = true := by
  have writable : Timestamp.isWritable { seconds := 0, nanos := 0 } = true := by decide
  simp [Run.isStorable, emptyRun, writable]

/-- An empty state directory, and a file beside it. -/
def besideFiles (text : String) : FileSystem where
  workingDirectory := []
  entries := [(["s"], .directory), (["beside.json"], .file (.text text) true)]

-- The texts of files are left open in what follows, so that no record has to be written out.

/-- The file beside the state directory is not in it. -/
theorem isEmptyDirectory_besideFiles (text : String) :
    IsEmptyDirectory records (besideFiles text) where
  ready := ⟨⟨rfl, rfl⟩, .inr (by decide)⟩
  empty location below strictly := by
    obtain ⟨rest, rfl⟩ := below
    have place : (besideFiles text).placeOf records = ["s"] := rfl
    rw [place] at strictly ⊢
    cases rest with
    | nil => simp at strictly
    | cons name rest => simp [entryAt?, besideFiles, List.lookup_cons]

/-! ### An identifier that leads out of the state directory -/

/-- An identifier with dots in it finds the file beside the state directory. -/
theorem load_besideFiles {run : Run} (storable : run.isStorable = true) :
    Run.load "../beside" records (besideFiles run.toJson.pretty) = .ok run := by
  have read (text : String) :
      (besideFiles text).readText (runFile "../beside" records) = .ok text := rfl
  exact Run.load_of_readText storable (read _)

/-- These files with something in the place of the index. -/
def spoiltFiles (text index : String) : FileSystem :=
  (besideFiles text).put ["s", "runs.json"] (.file (.text index) true)

/-- A run in the place of the index is not read as one, as it lacks the runs that an
index has. -/
theorem load_spoiltFiles (text : String) {run : Run} (storable : run.isStorable = true) :
    RunIndex.load records (spoiltFiles text run.toJson.pretty) =
      .error (.parseIndex (.missingField "runs")) := by
  have read (index : String) :
      (spoiltFiles text index).readText (RunIndex.file records) = .ok index := rfl
  rw [RunIndex.load_of_readText (read _), RunIndex.decodeText_run storable]
  rfl

/-- A run that has the name of the index is recorded in its place.  The file of the run
is written first, so that the index is lost by the time it is to be read. -/
theorem on_save_named_index (text : String) {run : Run} (named : run.id = "runs")
    (storable : run.isStorable = true) :
    (run.save records).on (besideFiles text) =
      (.error (.parseIndex (.missingField "runs")), spoiltFiles text run.toJson.pretty) := by
  have written (index : String) : (writeAtomically (runFile "runs" records) index).on
      (besideFiles text) = (.ok (), spoiltFiles text index) := by
    rw [on_writeAtomically]
    rfl
  rw [Run.on_save (isEmptyDirectory_besideFiles text).ready run, named, written]
  dsimp only
  rw [load_spoiltFiles text storable]

/-- The run that was found outside is recorded inside when it is undone, under its own
identifier. -/
theorem on_revertRun_beside :
    (revertRun "../beside" false records).on (besideFiles (emptyRun "runs").toJson.pretty) =
      (.error (.parseIndex (.missingField "runs")),
        spoiltFiles (emptyRun "runs").toJson.pretty (emptyRun "runs").undone.toJson.pretty) := by
  have storable := isStorable_emptyRun "runs"
  have revertible (text : String) : checkRevertible (emptyRun "runs") "../beside" false
      (besideFiles text) = .ok () := rfl
  have restored (text : String) : (restoreAll "../beside" records (emptyRun "runs").changes).on
      (besideFiles text) = (.ok (), besideFiles text) := rfl
  rw [on_revertRun_of_restored (load_besideFiles storable) (revertible _) (restored _)]
  exact on_save_named_index _ rfl storable

/-! ### Recorded runs -/

/-- These files with the record of a run and an index. -/
def savedFiles (text record index : String) : FileSystem :=
  ((besideFiles text).put ["s", "0a1b2c3.json"] (.file (.text record) true)).put
    ["s", "runs.json"] (.file (.text index) true)

/-- The state directory is there. -/
theorem isReady_savedFiles (text record index : String) :
    IsReady records (savedFiles text record index) :=
  ⟨⟨rfl, rfl⟩, .inr (by decide)⟩

/-- Recording the first run of a state directory, to the letter. -/
theorem on_save_besideFiles (text : String) {run : Run} (named : run.id = "0a1b2c3") :
    (run.save records).on (besideFiles text) =
      (.ok (), savedFiles text run.toJson.pretty (RunIndex.ofRuns [run]).toJson.pretty) := by
  have added : RunIndex.empty.add run = .ofRuns [run] := rfl
  rw [Run.on_save (isEmptyDirectory_besideFiles text).ready run, named, ← added]
  generalize run.toJson.pretty = record
  have written : (writeAtomically (runFile "0a1b2c3" records) record).on (besideFiles text) =
      (.ok (), (besideFiles text).put ["s", "0a1b2c3.json"] (.file (.text record) true)) := by
    rw [on_writeAtomically]
    rfl
  have loaded : RunIndex.load records
      ((besideFiles text).put ["s", "0a1b2c3.json"] (.file (.text record) true)) =
        .ok .empty := rfl
  simp only [written, loaded]
  generalize (RunIndex.empty.add run).toJson.pretty = index
  rw [on_writeAtomically]
  rfl

/-- The run is found under its identifier. -/
theorem load_savedFiles (text index : String) {run : Run} (storable : run.isStorable = true) :
    Run.load "0a1b2c3" records (savedFiles text run.toJson.pretty index) = .ok run := by
  have read (record : String) :
      (savedFiles text record index).readText (runFile "0a1b2c3" records) = .ok record := rfl
  exact Run.load_of_readText storable (read _)

/-- These files with the record of the run written anew. -/
def resavedFiles (text record index : String) : FileSystem :=
  ((besideFiles text).put ["s", "runs.json"] (.file (.text index) true)).put
    ["s", "0a1b2c3.json"] (.file (.text record) true)

/-- The run is recorded anew, if the index can be read. -/
theorem on_save_savedFiles (text record index : String) {run : Run} (named : run.id = "0a1b2c3") :
    (run.save records).on (savedFiles text record index) =
      match (Json.decodeText (RunIndex.decode .text) index).mapError RunError.parseIndex with
      | .error reason => (.error reason, resavedFiles text run.toJson.pretty index)
      | .ok old => (.ok (), savedFiles text run.toJson.pretty (old.add run).toJson.pretty) := by
  rw [Run.on_save (isReady_savedFiles _ _ _) run, named]
  generalize run.toJson.pretty = new
  have written : (writeAtomically (runFile "0a1b2c3" records) new).on
      (savedFiles text record index) = (.ok (), resavedFiles text new index) := by
    rw [on_writeAtomically]
    rfl
  have loaded : RunIndex.load records (resavedFiles text new index) =
      (Json.decodeText (RunIndex.decode .text) index).mapError .parseIndex := rfl
  simp only [written, loaded]
  cases (Json.decodeText (RunIndex.decode .text) index).mapError RunError.parseIndex with
  | error reason => rfl
  | ok old =>
      dsimp only
      generalize (old.add run).toJson.pretty = listed
      rw [on_writeAtomically]
      rfl

/-! ### A source that is a record -/

/-- A run with the index as its source, and the file beside the state directory as the backup of it. -/
def ownRun : Run :=
  { emptyRun "0a1b2c3" with
    changes := [{
      path := { text := "/s/runs.json" }
      hashBefore := ""
      hashAfter := ""
      backup := "/beside.json"
      fixesApplied := 0 }] }

/-- The run can be stored like any other: that its source is the index does not show. -/
theorem isStorable_ownRun : ownRun.isStorable = true := by decide

/-- Undoing it brings back the index as it is in the backup, which is empty, and then
the index cannot be read. -/
theorem on_revertRun_own (index : String) :
    (revertRun "0a1b2c3" true records).on (savedFiles "" ownRun.toJson.pretty index) =
      (.error (.parseIndex .malformed), resavedFiles "" ownRun.undone.toJson.pretty "") := by
  have revertible (record : String) : checkRevertible ownRun "0a1b2c3" true
      (savedFiles "" record index) = .ok () := rfl
  have restored (record : String) : (restoreAll "0a1b2c3" records ownRun.changes).on
      (savedFiles "" record index) = (.ok (), savedFiles "" record "") := by
    have read : (savedFiles "" record index).readText
        ((records.child "0a1b2c3").child "/beside.json") = .ok "" := rfl
    have written : (savedFiles "" record index).write { text := "/s/runs.json" } (.text "") =
        .ok (savedFiles "" record "") := rfl
    rw [ownRun, on_restoreAll_cons, on_restoreBackup]
    simp only [read, written]
    rfl
  have unread : Json.decodeText (RunIndex.decode .text) "" = .error .malformed := by decide
  have named : ownRun.undone.id = "0a1b2c3" := rfl
  rw [on_revertRun_of_restored (load_savedFiles "" index isStorable_ownRun) (revertible _)
    (restored _), on_save_savedFiles _ _ _ named, unread]
  rfl

/-- Nor can it be read afterwards. -/
theorem load_resavedFiles (record : String) :
    RunIndex.load records (resavedFiles "" record "") = .error (.parseIndex .malformed) := by
  have unread : Json.decodeText (RunIndex.decode .text) "" = .error .malformed := by decide
  have loaded : RunIndex.load records (resavedFiles "" record "") =
      (Json.decodeText (RunIndex.decode .text) "").mapError .parseIndex := rfl
  rw [loaded, unread]
  rfl

/-! ### A run that is undone -/

/-- A run without changes is undone by marking it in its file and in the index. -/
theorem on_revertRun_emptyRun : (revertRun "0a1b2c3" false records).on
    (savedFiles "" (emptyRun "0a1b2c3").toJson.pretty
      (RunIndex.ofRuns [emptyRun "0a1b2c3"]).toJson.pretty) =
    (.ok (), savedFiles "" (emptyRun "0a1b2c3").undone.toJson.pretty
      (RunIndex.ofRuns [(emptyRun "0a1b2c3").undone]).toJson.pretty) := by
  have storable := isStorable_emptyRun "0a1b2c3"
  have decoded : Json.decodeText (RunIndex.decode .text)
      (RunIndex.ofRuns [emptyRun "0a1b2c3"]).toJson.pretty = .ok (.ofRuns [emptyRun "0a1b2c3"]) :=
    RunIndex.decodeText_ofRuns (by simp) (by simpa using storable)
  have alone : (([] ++ emptyRun "0a1b2c3" :: [] : List Run).map (·.id)).Nodup := by simp
  have added : (RunIndex.ofRuns [emptyRun "0a1b2c3"]).add (emptyRun "0a1b2c3").undone =
      .ofRuns [(emptyRun "0a1b2c3").undone] := RunIndex.add_ofRuns alone rfl
  have revertible (record index : String) : checkRevertible (emptyRun "0a1b2c3") "0a1b2c3" false
      (savedFiles "" record index) = .ok () := rfl
  have restored (record index : String) :
      (restoreAll "0a1b2c3" records (emptyRun "0a1b2c3").changes).on (savedFiles "" record index) =
        (.ok (), savedFiles "" record index) := rfl
  have named : (emptyRun "0a1b2c3").undone.id = "0a1b2c3" := rfl
  rw [on_revertRun_of_restored (load_savedFiles "" _ storable) (revertible _ _) (restored _ _),
    on_save_savedFiles _ _ _ named, decoded]
  simp only [Except.mapError, added]

/-- The index lists the run. -/
theorem load_index_savedFiles (text record : String) {run : Run}
    (storable : run.isStorable = true) :
    RunIndex.load records (savedFiles text record (RunIndex.ofRuns [run]).toJson.pretty) =
      .ok (.ofRuns [run]) := by
  have decoded : Json.decodeText (RunIndex.decode .text)
      (RunIndex.ofRuns [run]).toJson.pretty = .ok (.ofRuns [run]) :=
    RunIndex.decodeText_ofRuns (by simp) (by simpa using storable)
  generalize (RunIndex.ofRuns [run]).toJson.pretty = index at decoded ⊢
  have loaded : RunIndex.load records (savedFiles text record index) =
      (Json.decodeText (RunIndex.decode .text) index).mapError .parseIndex := rfl
  rw [loaded, decoded]
  rfl

end Specimen

open Specimen

/-- A run is recorded and undone.  The index agrees with its file, and it cannot be undone again. -/
theorem runs_stay_in_step_specimen :
    ∃ now index, Relation.ReflTransGen (RecordStep records) ([], besideFiles "") now ∧
      IndexAgrees records index now.2 ∧
      index.find? "0a1b2c3" = some (emptyRun "0a1b2c3").undone ∧
      ∃ reason, (revertRun "0a1b2c3" true records).on now.2 = (.error reason, now.2) := by
  have isRunId : IsRunId (emptyRun "0a1b2c3").id := by decide
  have named : (emptyRun "0a1b2c3").id = "0a1b2c3" := rfl
  have saved := on_save_besideFiles "" named
  have first : RecordStep records ([], besideFiles "") (["0a1b2c3"], _) :=
    .save (emptyRun "0a1b2c3") isRunId List.not_mem_nil (isStorable_emptyRun _) rfl rfl
      (by simp [emptyRun]) (by rw [saved]; simp [WritesRecords])
  rw [saved] at first
  have second : RecordStep records _ (["0a1b2c3"], _) :=
    .revert "0a1b2c3" false (fun _ => ⟨_, rfl⟩)
      (by rw [on_revertRun_emptyRun]; simp [WritesRecords])
  rw [on_revertRun_emptyRun] at second
  have steps := (Relation.ReflTransGen.single first).tail second
  obtain ⟨index, agrees, again⟩ :=
    runs_stay_in_step records _ _ (isEmptyDirectory_besideFiles "") steps
  have storable : (emptyRun "0a1b2c3").undone.isStorable = true := isStorable_emptyRun "0a1b2c3"
  have loaded := agrees.loaded
  rw [load_index_savedFiles "" _ storable] at loaded
  obtain rfl := Except.ok.inj loaded
  have found : (RunIndex.ofRuns [(emptyRun "0a1b2c3").undone]).find? "0a1b2c3" =
      some (emptyRun "0a1b2c3").undone := rfl
  exact ⟨_, _, steps, agrees, found, again _ _ found rfl _ .refl _ true rfl⟩

/-- **What sets the index and the files apart.**  A run outside the state directory that has the name of
the index is recorded in its place when it is undone; and a run with the index as a source overwrites
the index when it is undone.  Either way the index cannot be read any more. -/
theorem runs_set_apart :
    (IsEmptyDirectory records (besideFiles (emptyRun "runs").toJson.pretty) ∧
      WritesRecords ((revertRun "../beside" false records).on
        (besideFiles (emptyRun "runs").toJson.pretty)).1 ∧
      ∀ index, ¬ IndexAgrees records index ((revertRun "../beside" false records).on
        (besideFiles (emptyRun "runs").toJson.pretty)).2) ∧
    ∃ recorded, IsEmptyDirectory records (besideFiles "") ∧ IsRunId ownRun.id ∧
      (ownRun.save records).on (besideFiles "") = (.ok (), recorded) ∧
      WritesRecords ((revertRun ownRun.id true records).on recorded).1 ∧
      ∀ index, ¬ IndexAgrees records index ((revertRun ownRun.id true records).on recorded).2 := by
  have storable : (emptyRun "runs").undone.isStorable = true := isStorable_emptyRun "runs"
  refine ⟨⟨isEmptyDirectory_besideFiles _, ?_, ?_⟩,
    _, isEmptyDirectory_besideFiles "", by decide, on_save_besideFiles "" rfl, ?_, ?_⟩
  · rw [on_revertRun_beside]
    rintro reason same
    obtain rfl := Except.error.inj same
    rfl
  · intro index agrees
    have loaded := agrees.loaded
    rw [on_revertRun_beside, load_spoiltFiles _ storable] at loaded
    contradiction
  · rw [show ownRun.id = "0a1b2c3" from rfl, on_revertRun_own]
    rintro reason same
    obtain rfl := Except.error.inj same
    rfl
  · intro index agrees
    have loaded := agrees.loaded
    rw [show ownRun.id = "0a1b2c3" from rfl, on_revertRun_own, load_resavedFiles] at loaded
    contradiction

end AliasHoist
