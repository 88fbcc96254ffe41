import AliasHoist.Proofs.FileSystem.Removing
import AliasHoist.Proofs.Runs.Decoding
import AliasHoist.Proofs.Runs.Reverting

/-!
# Runs in their files

Every run is recorded twice, in a file of its own and in the index.  This module says what it means that
the two agree, whatever else there is in the state directory, and that recording a run keeps them so.

## Main Definitions

* `WritesRecords`: an operation did not fail at a record;
* `HoldsText`: a file of the state directory with its text;
* `Filed`: some runs are in their files, and there is no other file that could be that of a run;
* `KeptInStep`: and the index lists just these runs;
* `NamesRecord`: an identifier does not lead out of the state directory.

## Main Statements

* `KeptInStep.of_keeps`: runs stay in step while no record is touched;
* `Filed.load`, `KeptInStep.load_index`, `KeptInStep.mem_of_load`: reading back;
* `KeptInStep.of_saved_new`, `KeptInStep.of_saved_again`: recording a run.
-/

namespace AliasHoist

open FileSystem

variable {fs before after : FileSystem} {state : Path} {name text id : String} {run : Run}
  {runs next : List Run} {touched : Set Location}

/-! ## Failures -/

/-- Whether a failure is one of the files in which runs are recorded, and not of a
source or of its backup.  After such a failure a file of a run and the index may
disagree, and nothing more is claimed about them. -/
def RunError.spoilsRecords : RunError → Bool
  | .files _ | .createFile _ _ | .moveIntoPlace _ _ | .moveAside _ _ => true
  | _ => false

/-- **The records could be written**: the outcome is no failure of theirs.  It is the
one hypothesis on outcomes in the invariants below; failures about sources and backups
are covered by them. -/
def WritesRecords {α : Type} (outcome : Except RunError α) : Prop :=
  ∀ reason, outcome = .error reason → reason.spoilsRecords = false

/-- A record that cannot be written whole is a failure at the records. -/
theorem spoilsRecords_of_writeAtomically {path : Path} {reason : RunError}
    (h : (writeAtomically path text).on fs = (.error reason, after)) :
    reason.spoilsRecords = true := by
  obtain ⟨failure, ⟨-, rfl⟩ | ⟨-, rfl⟩⟩ := on_writeAtomically_eq_error h
  · rfl
  · rfl

/-- With an index that can be read, recording a run fails only when its records cannot
be written.  An index that cannot be read is no such failure, so that it can be read has
to be assumed. -/
theorem Run.spoilsRecords_of_save (ready : IsReady state fs) (isRunId : IsRunId run.id)
    {index : RunIndex} {reason : RunError}
    (hindex : RunIndex.ofEntry (fs.entryAt? (fs.placeOf state ++ ["runs.json"])) = .ok index)
    (h : (run.save state).on fs = (.error reason, after)) : reason.spoilsRecords = true := by
  cases Run.saveEnds_of_made ready.makeDirectories h with
  | unwritten written => exact spoilsRecords_of_writeAtomically written
  | unread written unread =>
      rw [load_index_of_writeAtomically isRunId written, hindex] at unread
      contradiction
  | listed written loaded listing => exact spoilsRecords_of_writeAtomically listing

/-! ## Files of the state directory -/

/-- **A file of the state directory with its text.**  Less is asked than in `Stored`:
the file may have been put there by hand, and there may be something beside it. -/
structure HoldsText (state : Path) (name text : String) (fs : FileSystem) : Prop where
  followable : isFollowable (state.child name) = true
  short : name.utf8ByteSize ≤ longestName
  held : fs.entryAt? (fs.placeOf state ++ [name]) = some (.file (.text text) true)

/-- What has been stored is there with its text. -/
theorem Stored.holdsText (h : Stored state name text fs) (plain : IsPlainName name) :
    HoldsText state name text fs := by
  obtain ⟨_, followable, short, _⟩ := (locate_child_iff plain).mp h.located
  exact ⟨followable, short, h.held⟩

namespace HoldsText

/-- The file is found under its name, and it can be written to. -/
theorem stat (h : HoldsText state name text fs) (plain : IsPlainName name) (ready : IsReady state fs) :
    fs.stat (state.child name) = .ok (fs.placeOf state ++ [name], .file (.text text) true) :=
  stat_child_file plain
    ((locate_child_iff plain).mpr ⟨ready.leads, h.followable, h.short, rfl⟩) h.held

/-- The file is there. -/
theorem exists? (h : HoldsText state name text fs) (plain : IsPlainName name)
    (ready : IsReady state fs) : fs.exists? (state.child name) = true :=
  exists?_eq_true_iff.mpr ⟨_, _, h.stat plain ready⟩

/-- Its text can be read. -/
theorem readText (h : HoldsText state name text fs) (plain : IsPlainName name)
    (ready : IsReady state fs) : fs.readText (state.child name) = .ok text :=
  readText_eq_ok_iff.mpr ⟨_, _, h.stat plain ready⟩

theorem of_keeps (h : HoldsText state name text before) (keeps : Keeps touched before after)
    (untouched : before.placeOf state ++ [name] ∉ touched) : HoldsText state name text after where
  followable := h.followable
  short := h.short
  held := by
    rw [keeps.placeOf, keeps.entryAt?_eq _ untouched]
    exact h.held

end HoldsText

/-! ## Runs in their files -/

/-- **A run that can be kept in step**: it has an identifier, can be stored, is marked
as it should be, and none of its sources is a record.  The last field is what keeps a
run from overwriting records when it is undone. -/
structure IsKeepable (state : Path) (run : Run) (fs : FileSystem) : Prop where
  isRunId : IsRunId run.id
  storable : run.isStorable = true
  marked : run.status = .reverted ↔ run.canRevert = false
  sources : ∀ change ∈ run.changes, ∀ name,
    fs.placeOf change.path ≠ fs.placeOf state ++ [name ++ ".json"]

/-- Changes of files do not matter to it, as only the run and the places of paths are
spoken of. -/
theorem IsKeepable.of_keeps (h : IsKeepable state run before) (keeps : Keeps touched before after) :
    IsKeepable state run after where
  isRunId := h.isRunId
  storable := h.storable
  marked := h.marked
  sources change mem name := by
    rw [keeps.placeOf, keeps.placeOf]
    exact h.sources change mem name

/-- Nor does marking the run as undone. -/
theorem IsKeepable.undone (h : IsKeepable state run fs) : IsKeepable state run.undone fs where
  isRunId := h.isRunId
  storable := h.storable
  marked := by simp [Run.undone]
  sources := h.sources

/-- **Some runs are in their files**, and no other file of the state directory could be
that of a run.  The last field makes `mem_of_load` true: whatever is read as a run in
this directory was recorded. -/
structure Filed (state : Path) (runs : List Run) (fs : FileSystem) : Prop where
  ready : IsReady state fs
  direct : fs.IsDirect state
  keepable : ∀ run ∈ runs, IsKeepable state run fs
  nodup : (runs.map (·.id)).Nodup
  records : ∀ run ∈ runs, HoldsText state (run.id ++ ".json") run.toJson.pretty fs
  others : ∀ name, name ≠ "runs" → name ∉ runs.map (·.id) →
    fs.entryAt? (fs.placeOf state ++ [name ++ ".json"]) = none

/-- **Runs in step**: they are in their files, and the index lists them.  An index that
is missing stands for one without runs, which is how a state directory begins. -/
structure KeptInStep (state : Path) (runs : List Run) (fs : FileSystem) : Prop
    extends Filed state runs fs where
  index : runs = [] ∧ fs.entryAt? (fs.placeOf state ++ ["runs.json"]) = none ∨
    HoldsText state "runs.json" (RunIndex.ofRuns runs).toJson.pretty fs

/-- Runs stay in their files while none of these is touched. -/
theorem Filed.of_keeps (h : Filed state runs before) (keeps : Keeps touched before after)
    (ready : IsReady state after)
    (untouched : ∀ name, name ≠ "runs" → before.placeOf state ++ [name ++ ".json"] ∉ touched) :
    Filed state runs after where
  ready := ready
  direct := h.direct.of_workingDirectory_eq keeps.workingDirectory_eq
  keepable run mem := (h.keepable run mem).of_keeps keeps
  nodup := h.nodup
  records run mem :=
    (h.records run mem).of_keeps keeps
      (untouched _ ((h.keepable run mem).isRunId.ne_of_length (by decide)).symm)
  others name ne fresh := by
    rw [keeps.placeOf, keeps.entryAt?_eq _ (untouched name ne)]
    exact h.others name ne fresh

/-- **Runs stay in step** while no record is touched.  Only names that end like a record
count, so backups, directories of runs and sources may change freely. -/
theorem KeptInStep.of_keeps (h : KeptInStep state runs before) (keeps : Keeps touched before after)
    (ready : IsReady state after)
    (untouched : ∀ name, before.placeOf state ++ [name ++ ".json"] ∉ touched) :
    KeptInStep state runs after where
  toFiled := h.toFiled.of_keeps keeps ready fun name _ => untouched name
  index := by
    have apart : before.placeOf state ++ ["runs.json"] ∉ touched := untouched "runs"
    refine h.index.imp (fun ⟨nothing, absent⟩ => ⟨nothing, ?_⟩) fun holds =>
      holds.of_keeps keeps apart
    rw [keeps.placeOf, keeps.entryAt?_eq _ apart]
    exact absent

/-! ## Reading back -/

/-- An index that was written is read back.  It is the round trip of the index through
its text, on disk. -/
theorem RunIndex.IsStorable.load_of_stored {index : RunIndex} (h : index.IsStorable)
    (stored : Stored state "runs.json" index.toJson.pretty fs) :
    RunIndex.load state fs = .ok index := by
  rw [RunIndex.load_eq_ofEntry stored.located, stored.held, RunIndex.ofEntry, h.decodeText_pretty]
  rfl

/-- A run is read back from its file.  That the file is in the place its identifier
leads to is part of being filed, and the rest is the round trip of a run. -/
theorem Filed.load (h : Filed state runs fs) (mem : run ∈ runs) :
    Run.load run.id state fs = .ok run := by
  have keepable := h.keepable run mem
  exact Run.load_of_readText keepable.storable
    ((h.records run mem).readText keepable.isRunId.isPlainName_file h.ready)

/-- The index of runs in their files can be written and read back. -/
theorem Filed.isStorable_ofRuns (h : Filed state runs fs) : (RunIndex.ofRuns runs).IsStorable where
  nodup := by
    rw [RunIndex.keys_ofRuns]
    exact h.nodup
  runs entry mem := by
    obtain ⟨run, hrun, rfl⟩ := List.mem_map.mp mem
    exact (h.keepable run hrun).storable

/-- The entry of the index is that of the runs.  An index that is missing decodes to the
empty one, so both cases of `KeptInStep.index` are the same from here on. -/
theorem KeptInStep.ofEntry (h : KeptInStep state runs fs) :
    RunIndex.ofEntry (fs.entryAt? (fs.placeOf state ++ ["runs.json"])) = .ok (.ofRuns runs) := by
  rcases h.index with ⟨rfl, absent⟩ | holds
  · rw [absent]
    rfl
  · rw [holds.held, RunIndex.ofEntry, h.isStorable_ofRuns.decodeText_pretty]
    rfl

/-- **The index is read back.**  Listing and forgetting runs start by reading the index,
and this is what they get. -/
theorem KeptInStep.load_index (h : KeptInStep state runs fs) :
    RunIndex.load state fs = .ok (.ofRuns runs) := by
  cases located : fs.locate (RunIndex.file state) with
  | ok location =>
      obtain rfl := locate_child isPlainName_index located
      rw [RunIndex.load_eq_ofEntry located, h.ofEntry]
  | error reason =>
      -- without a way to the index there is none, and so there are no runs
      have unseen : fs.stat (RunIndex.file state) = .error reason := by
        rw [FileSystem.stat, located]
        rfl
      rcases h.index with ⟨rfl, -⟩ | holds
      · rw [RunIndex.load, FileSystem.exists?, unseen]
        rfl
      · have seen := holds.stat isPlainName_index h.ready
        rw [← RunIndex.file, unseen] at seen
        contradiction

/-- Whether the file of an identifier, if there is one, is right in the state directory.
An identifier such as `../x` leads out of it, and then the file belongs to no run of
this directory. -/
def NamesRecord (state : Path) (id : String) (fs : FileSystem) : Prop :=
  fs.exists? (runFile id state) = true →
    ∃ name, fs.placeOf (runFile id state) = fs.placeOf state ++ [name]

/-- **What is read as a run is one of the runs**, if it was read right in the state
directory: the index is no run.  An identifier can be spelled with a needless dot and
slash, so the run that is found need not have the identifier that was asked for. -/
theorem KeptInStep.mem_of_load (h : KeptInStep state runs fs) (within : NamesRecord state id fs)
    (loaded : Run.load id state fs = .ok run) :
    run ∈ runs ∧ fs.placeOf (runFile id state) = fs.placeOf state ++ [run.id ++ ".json"] := by
  obtain ⟨text, read, decoded⟩ := Run.load_eq_ok_iff.mp loaded
  obtain ⟨location, writable, found⟩ := readText_eq_ok_iff.mp read
  obtain rfl := eq_placeOf_of_stat found
  have held := (stat_eq_ok_iff.mp found).2.1
  obtain ⟨name, place⟩ := within (exists?_eq_true_iff.mpr ⟨_, _, found⟩)
  obtain ⟨directory, stem, named⟩ := placeOf_runFile fs state id
  obtain ⟨-, rfl⟩ : directory = fs.placeOf state ∧ stem ++ ".json" = name := by
    simpa using named.symm.trans place
  rw [place] at held
  by_cases index : stem = "runs"
  · -- the index is there, and is no run
    subst index
    rcases h.index with ⟨-, absent⟩ | holds
    · have : fs.entryAt? (fs.placeOf state ++ ["runs.json"]) = _ := held
      rw [absent] at this
      contradiction
    · have same := holds.held.symm.trans held
      simp only [Option.some.injEq, Entry.file.injEq, Content.text.injEq] at same
      rw [← same.1, Run.decodeText_index h.isStorable_ofRuns] at decoded
      contradiction
  · by_cases known : stem ∈ runs.map (·.id)
    · obtain ⟨found, mem, rfl⟩ := List.mem_map.mp known
      have same := (h.records found mem).held.symm.trans held
      simp only [Option.some.injEq, Entry.file.injEq, Content.text.injEq] at same
      rw [← same.1, Run.decodeText_pretty (h.keepable found mem).storable] at decoded
      obtain rfl := Except.ok.inj decoded
      exact ⟨mem, place⟩
    · rw [h.others stem index known] at held
      contradiction

/-! ## Recording a run -/

/-- Writing one record does not touch another one. -/
theorem record_not_mem_slot {place : Location} {other : String} (ne : name ≠ other) :
    place ++ [name ++ ".json"] ∉ slot place (other ++ ".json") := by
  rintro (same | same)
  · exact json_ne_json ne (by simpa using same)
  · exact json_ne_tmp name (other ++ ".json") (by simpa using same)

/-- **A run that has been recorded is in step** with the others.  The runs afterwards
are described by membership, which covers a run that is new and one that takes its own
place. -/
theorem KeptInStep.of_recorded (h : KeptInStep state runs fs) (keepable : IsKeepable state run fs)
    (nodup : (next.map (·.id)).Nodup)
    (mem_next : ∀ other, other ∈ next ↔ other = run ∨ other ∈ runs ∧ other.id ≠ run.id)
    (changes : Changes (recordSlots (fs.placeOf state) run.id) ∅ fs after)
    (stored : Stored state (run.id ++ ".json") run.toJson.pretty after)
    (listed : Stored state "runs.json" (RunIndex.ofRuns next).toJson.pretty after) :
    KeptInStep state next after := by
  have keeps := (Keeps.of_changes changes).mono (by rw [Set.union_empty])
  have untouched {name : String} (ne : name ≠ "runs") (ne' : name ≠ run.id) :
      fs.placeOf state ++ [name ++ ".json"] ∉ recordSlots (fs.placeOf state) run.id := by
    rintro (there | there)
    · exact record_not_mem_slot ne' there
    · exact record_not_mem_slot ne there
  refine ⟨⟨h.ready.of_changes changes, h.direct.of_workingDirectory_eq keeps.workingDirectory_eq,
    fun other mem => ?_, nodup, fun other mem => ?_, fun name ne fresh => ?_⟩,
    .inr (listed.holdsText isPlainName_index)⟩
  · rcases (mem_next other).mp mem with rfl | ⟨old, _⟩
    · exact keepable.of_keeps keeps
    · exact (h.keepable other old).of_keeps keeps
  · rcases (mem_next other).mp mem with rfl | ⟨old, ne⟩
    · exact stored.holdsText keepable.isRunId.isPlainName_file
    · exact (h.records other old).of_keeps keeps
        (untouched ((h.keepable other old).isRunId.ne_of_length (by decide)).symm ne)
  · rw [List.mem_map, not_exists] at fresh
    have ne' : name ≠ run.id := by
      rintro rfl
      exact fresh run ⟨(mem_next run).mpr (.inl rfl), rfl⟩
    rw [keeps.placeOf, keeps.entryAt?_eq _ (untouched ne ne')]
    refine h.others name ne fun known => ?_
    obtain ⟨other, old, rfl⟩ := List.mem_map.mp known
    exact fresh other ⟨(mem_next other).mpr (.inr ⟨old, ne'⟩), rfl⟩

/-- Recording a run keeps the runs in step, unless it fails at the records.  With
`KeptInStep.of_recorded` this is all that recording does to the invariant; the two
lemmas below only say which runs there are afterwards. -/
theorem KeptInStep.of_saved (h : KeptInStep state runs fs) (keepable : IsKeepable state run fs)
    (nodup : (next.map (·.id)).Nodup)
    (mem_next : ∀ other, other ∈ next ↔ other = run ∨ other ∈ runs ∧ other.id ≠ run.id)
    (added : (RunIndex.ofRuns runs).add run = .ofRuns next) {outcome : Except RunError Unit}
    (saved : (run.save state).on fs = (outcome, after)) (writes : WritesRecords outcome) :
    KeptInStep state next after := by
  have isRunId := keepable.isRunId
  cases outcome with
  | error reason =>
      have spoilt := Run.spoilsRecords_of_save h.ready isRunId h.ofEntry saved
      rw [writes reason rfl] at spoilt
      contradiction
  | ok done =>
      have changes := Run.save_changes h.ready run isRunId
      rw [saved] at changes
      obtain ⟨stored, listed⟩ := Run.save_spec h.ready run isRunId saved (by simp)
      have index := (listed _ h.ofEntry).2
      rw [added] at index
      exact h.of_recorded keepable nodup mem_next changes stored index

/-- A new run comes last.  In the form in which `KeptInStep.of_recorded` asks for it. -/
theorem mem_append_new (fresh : run.id ∉ runs.map (·.id)) (other : Run) :
    other ∈ runs ++ [run] ↔ other = run ∨ other ∈ runs ∧ other.id ≠ run.id := by
  rw [List.mem_append, List.mem_singleton, or_comm]
  refine or_congr_right ⟨fun old => ⟨old, ?_⟩, And.left⟩
  intro same
  exact fresh (List.mem_map.mpr ⟨other, old, same⟩)

/-- And identifiers stay unique. -/
theorem nodup_append_new (nodup : (runs.map (·.id)).Nodup) (fresh : run.id ∉ runs.map (·.id)) :
    ((runs ++ [run]).map (·.id)).Nodup := by
  rw [List.map_append, List.nodup_append]
  refine ⟨nodup, List.nodup_singleton _, fun old mem new hnew same => ?_⟩
  rw [same, List.mem_singleton.mp hnew] at mem
  exact fresh mem

/-- **A new run comes last in the index**, and all runs are in step. -/
theorem KeptInStep.of_saved_new (h : KeptInStep state runs fs) (keepable : IsKeepable state run fs)
    (fresh : run.id ∉ runs.map (·.id)) {outcome : Except RunError Unit}
    (saved : (run.save state).on fs = (outcome, after)) (writes : WritesRecords outcome) :
    KeptInStep state (runs ++ [run]) after :=
  h.of_saved keepable (nodup_append_new h.nodup fresh) (mem_append_new fresh)
    (RunIndex.add_ofRuns_new fresh) saved writes

/-- A run that is recorded anew takes its own place.  Only the identifier has to be the
same: this is how a run is marked as undone. -/
theorem KeptInStep.of_saved_again {earlier later : List Run} {old : Run}
    (h : KeptInStep state (earlier ++ old :: later) fs) (keepable : IsKeepable state run fs)
    (same : run.id = old.id) {outcome : Except RunError Unit}
    (saved : (run.save state).on fs = (outcome, after)) (writes : WritesRecords outcome) :
    KeptInStep state (earlier ++ run :: later) after := by
  have ids : (earlier ++ run :: later).map (·.id) = (earlier ++ old :: later).map (·.id) := by
    simp [same]
  refine h.of_saved keepable (ids ▸ h.nodup) (fun other => ?_) (RunIndex.add_ofRuns h.nodup same)
    saved writes
  have apart (mem : other ∈ earlier ++ later) : other.id ≠ run.id := by
    rw [same]
    exact RunIndex.id_ne_of_nodup h.nodup mem
  constructor
  · intro mem
    rcases List.mem_append.mp mem with front | back
    · exact .inr ⟨by simp [front], apart (by simp [front])⟩
    · rcases List.mem_cons.mp back with rfl | back
      · exact .inl rfl
      · exact .inr ⟨by simp [back], apart (by simp [back])⟩
  · rintro (rfl | ⟨mem, ne⟩)
    · simp
    · rcases List.mem_append.mp mem with front | back
      · simp [front]
      · rcases List.mem_cons.mp back with rfl | back
        · exact absurd same.symm ne
        · simp [back]

end AliasHoist
