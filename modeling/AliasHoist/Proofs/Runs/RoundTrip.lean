import AliasHoist.Proofs.Json.RoundTrip
import AliasHoist.Proofs.Time.RoundTrip
import AliasHoist.Runs.Index
import Mathlib.Data.List.Nodup

/-!
# Reading stored runs back

A run and an index of runs are read back from their stored forms.

## Main Definitions

* `Run.isStorable`: the time of a run can be written, and its counts fit into 64 bits;
* `RunIndex.ofRuns`: the index of some runs.

## Main Statements

* `Json.recordMembers_object`: a record that is stored with all its fields is accepted;
* `Run.decodeText_pretty`: a run is read back;
* `RunIndex.decodeText_pretty`: an index is read back;
* `RunIndex.add_ofRuns_new`, `RunIndex.add_ofRuns`: what adding a run does to an index.
-/

namespace AliasHoist

namespace Json

variable {α β : Type} {decode : Decoder α} {value : Value}

/-! ## Records, lists and maps -/

/-- Members are fine when no key comes twice and each of them is a field that accepts
its value.  The list of what has been read grows along the members, so the lemma is
stated for any such list. -/
theorem checkMembers_eq_ok {type : RecordType} {members : List (String × Value)}
    {read : List String} (nodup : (members.map (·.1)).Nodup)
    (fresh : ∀ member ∈ members, member.1 ∉ read)
    (accepted : ∀ member ∈ members, ∃ check,
      type.fields.lookup member.1 = some check ∧ check member.2 = .ok ()) :
    checkMembers type read members = .ok () := by
  induction members generalizing read with
  | nil => rfl
  | cons member rest ih =>
      obtain ⟨key, value⟩ := member
      obtain ⟨check, found, ok⟩ := accepted (key, value) List.mem_cons_self
      have unread : read.contains key = false := by
        simpa using fresh (key, value) List.mem_cons_self
      rw [List.map_cons, List.nodup_cons] at nodup
      rw [checkMembers, found]
      simp only [unread, Bool.false_eq_true, if_false, ok]
      refine ih nodup.2 (fun member mem => ?_) fun member mem =>
        accepted member (List.mem_cons_of_mem _ mem)
      rw [List.mem_cons, not_or]
      refine ⟨fun same => ?_, fresh member (List.mem_cons_of_mem _ mem)⟩
      exact nodup.1 (List.mem_map.mpr ⟨member, mem, same⟩)

/-- **A record that is stored with all its fields is accepted.**  Being complete is not
needed here; missing fields are found when they are looked up. -/
theorem recordMembers_object {source : DataSource} {type : RecordType}
    {members : List (String × Value)} (nodup : (members.map (·.1)).Nodup)
    (accepted : ∀ member ∈ members, ∃ check,
      type.fields.lookup member.1 = some check ∧ check member.2 = .ok ()) :
    recordMembers source type (.object members) = .ok members := by
  rw [recordMembers, checkMembers_eq_ok nodup (fun _ _ => List.not_mem_nil) accepted]
  rfl

@[simp] theorem text_text (s : String) : text (.text s) = .ok s := rfl

@[simp] theorem textAs_text (expected s : String) : textAs expected (.text s) = .ok s := rfl

@[simp] theorem bool_bool (b : Bool) : bool (.bool b) = .ok b := rfl

@[simp] theorem natural_nat (n : Nat) : natural (.nat n) = .ok n := by
  simp [natural, Value.nat]

/-- A list is read back when its items are.  Item by item, so what is needed of items
can be proved for one of them. -/
theorem listOf_array {store : α → Value} {values : List α}
    (h : ∀ a ∈ values, decode (store a) = .ok a) :
    listOf decode (.array (values.map store)) = .ok values := by
  rw [listOf]
  induction values with
  | nil => rfl
  | cons a rest ih =>
      rw [List.map_cons, decodeItems, h a List.mem_cons_self,
        ih fun a mem => h a (List.mem_cons_of_mem _ mem)]
      rfl

/-- A new key comes last. -/
theorem putEntry_of_not_mem {key : String} {a : α} {entries : List (String × α)}
    (fresh : key ∉ entries.map (·.1)) : putEntry key a entries = entries ++ [(key, a)] := by
  have : entries.any (·.1 == key) = false := by
    rw [List.any_eq_false]
    intro entry mem same
    exact fresh (List.mem_map.mpr ⟨entry, mem, beq_iff_eq.mp same⟩)
  rw [putEntry, this]
  rfl

/-- The members that have not been read yet follow those that have.  It is the induction
behind `mapOf_object`, with the members that have been read as its accumulator. -/
theorem decodeMembers_map {store : α → Value} {read members : List (String × α)}
    (nodup : ((read ++ members).map (·.1)).Nodup)
    (h : ∀ member ∈ members, decode (store member.2) = .ok member.2) :
    decodeMembers decode read (members.map fun (key, a) => (key, store a)) =
      .ok (read ++ members) := by
  induction members generalizing read with
  | nil => simp [decodeMembers]
  | cons member rest ih =>
      obtain ⟨key, a⟩ := member
      have fresh : key ∉ read.map (·.1) := by
        rw [List.map_append, List.nodup_append] at nodup
        exact fun mem => nodup.2.2 key mem key (by simp) rfl
      rw [List.map_cons, decodeMembers, h (key, a) List.mem_cons_self]
      simp only [bind, Except.bind]
      rw [putEntry_of_not_mem fresh, ih (by simpa using nodup) fun member mem =>
        h member (List.mem_cons_of_mem _ mem)]
      simp

/-- A map is read back when its values are.  Keys have to be unique because of two with
the same key only the last would be read. -/
theorem mapOf_object {store : α → Value} {members : List (String × α)}
    (nodup : (members.map (·.1)).Nodup)
    (h : ∀ member ∈ members, decode (store member.2) = .ok member.2) :
    mapOf decode (.object (members.map fun (key, a) => (key, store a))) = .ok members := by
  rw [mapOf, decodeMembers_map nodup h, List.nil_append]

/-- What is read back from a value is read back from its text.  It joins the round trip
of values through text with that of records through values. -/
theorem decodeText_pretty {a : α} (storable : value.isStorable = true) (h : decode value = .ok a) :
    decodeText decode value.pretty = .ok a := by
  rw [decodeText, Document.ofText_pretty storable]
  simp [h, bind, Except.bind]

/-- A list can be stored when its items can. -/
theorem areStorable_map {store : α → Value} {values : List α}
    (h : ∀ a ∈ values, (store a).isStorable = true) :
    Value.areStorable (values.map store) = true := by
  induction values with
  | nil => rfl
  | cons a rest ih =>
      rw [List.map_cons, Value.areStorable, h a List.mem_cons_self,
        ih fun a mem => h a (List.mem_cons_of_mem _ mem)]
      rfl

/-- A map can be stored when its values can. -/
theorem areStorableMembers_map {store : α → Value} {members : List (String × α)}
    (h : ∀ member ∈ members, (store member.2).isStorable = true) :
    Value.areStorableMembers (members.map fun (key, a) => (key, store a)) = true := by
  induction members with
  | nil => rfl
  | cons member rest ih =>
      rw [List.map_cons, Value.areStorableMembers, h member List.mem_cons_self,
        ih fun member mem => h member (List.mem_cons_of_mem _ mem)]
      rfl

end Json

open Json

/-! ## Changes and runs -/

namespace FileChange

/-- A change can be stored when its count fits into 64 bits. -/
theorem isStorable_toJson {change : FileChange} (fits : change.fixesApplied < 2 ^ 64) :
    change.toJson.isStorable = true := by
  simp only [toJson, Value.nat, Value.isStorable, Value.areStorableMembers, Bool.true_and,
    Bool.and_true, Bool.and_eq_true, decide_eq_true_eq]
  omega

/-- A change is read back from its stored value, with no condition: a count of any size
survives as a value. -/
@[simp] theorem decode_toJson (source : DataSource) (change : FileChange) :
    decode source change.toJson = .ok change := by
  have path : pathDecoder (.text change.path.text) = .ok change.path := rfl
  rw [decode, toJson, recordMembers_object (by simp)]
  · simp [requiredField, List.lookup_cons, bind, Except.bind, pure, Except.pure, path]
  · simp [record, List.lookup_cons, checked, Except.map, path]

end FileChange

namespace Run

/-- **Whether a run can be stored**: its time can be written, and its counts fit into 64
bits.  Clocks and counters give nothing else, and it can be decided for any run. -/
def isStorable (run : Run) : Bool :=
  run.time.isWritable && run.changes.all fun change => change.fixesApplied < 2 ^ 64

/-- A run is stored as a value whose numbers and times can be written. -/
theorem isStorable_toJson {run : Run} (h : run.isStorable = true) :
    run.toJson.isStorable = true := by
  simp only [isStorable, Bool.and_eq_true, List.all_eq_true, decide_eq_true_eq] at h
  have changes := areStorable_map fun change mem => FileChange.isStorable_toJson (h.2 change mem)
  simp [toJson, Value.isStorable, Value.areStorableMembers, changes]

/-- A run is read back from its stored value, provided that its time can be written. -/
theorem decode_toJson {run : Run} (source : DataSource) (h : run.isStorable = true) :
    decode source run.toJson = .ok run := by
  simp only [isStorable, Bool.and_eq_true] at h
  have time : timeDecoder (.text run.time.text) = .ok run.time := by
    simp [timeDecoder, bind, Except.bind, Timestamp.ofText?_text h.1, pure, Except.pure]
  have status : RunStatus.decode source (.text run.status.label) = .ok run.status := by
    simp [RunStatus.decode, RunStatus.named, RunStatus.ofLabel?_label]
  have changes : listOf (FileChange.decode source) (.array (run.changes.map FileChange.toJson)) =
      .ok run.changes := listOf_array fun change _ => change.decode_toJson source
  rw [decode, toJson, recordMembers_object (by simp)]
  · simp [requiredField, List.lookup_cons, bind, Except.bind, pure, Except.pure, time, status, changes]
  · simp [record, List.lookup_cons, checked, Except.map, time, status, changes]

/-- **A run is read back from its stored form.**  This is what undoing and listing rest
on: they see the run as it was recorded. -/
theorem decodeText_pretty {run : Run} (h : run.isStorable = true) :
    decodeText (decode .text) run.toJson.pretty = .ok run :=
  Json.decodeText_pretty (isStorable_toJson h) (decode_toJson .text h)

end Run

/-! ## The index -/

namespace RunIndex

/-- **An index is read back from its stored form.**  Runs under the same key would be
merged, hence the first hypothesis. -/
theorem decodeText_pretty {index : RunIndex} (nodup : (index.runs.map (·.1)).Nodup)
    (h : ∀ entry ∈ index.runs, entry.2.isStorable = true) :
    decodeText (decode .text) index.toJson.pretty = .ok index := by
  have runs := mapOf_object nodup fun entry mem => Run.decode_toJson .text (h entry mem)
  have storable := areStorableMembers_map fun entry mem => Run.isStorable_toJson (h entry mem)
  refine Json.decodeText_pretty ?_ ?_
  · simp [toJson, Value.isStorable, Value.areStorableMembers, storable]
  · rw [decode, toJson, recordMembers_object (by simp)]
    · simp [requiredField, bind, Except.bind, pure, Except.pure, runs]
    · simp [record, List.lookup_cons, checked, Except.map, runs]

/-- The index of some runs.  Each run is under its own identifier, in the order given.
-/
def ofRuns (runs : List Run) : RunIndex := { runs := runs.map fun run => (run.id, run) }

variable {runs earlier later : List Run} {run old : Run}

/-- The keys of an index are the identifiers of its runs. -/
theorem keys_ofRuns (runs : List Run) : (ofRuns runs).runs.map (·.1) = runs.map (·.id) := by
  simp [ofRuns, Function.comp_def]

/-- A run that is in the index is found.  Unique identifiers make searching the index
the same as looking for the run. -/
theorem find?_ofRuns (nodup : (runs.map (·.id)).Nodup) (mem : run ∈ runs) :
    (ofRuns runs).find? run.id = some run := by
  induction runs with
  | nil => simp at mem
  | cons first rest ih =>
      rw [List.map_cons, List.nodup_cons] at nodup
      rcases List.mem_cons.mp mem with rfl | mem
      · simp [find?, ofRuns]
      · have other : (run.id == first.id) = false := by
          rw [beq_eq_false_iff_ne]
          exact fun same => nodup.1 (List.mem_map.mpr ⟨run, mem, same⟩)
        have := ih nodup.2 mem
        simpa [find?, ofRuns, List.lookup_cons, other] using this

/-- A run with a new identifier comes last.  The order of the index is thus the order in
which runs were recorded. -/
theorem add_ofRuns_new (fresh : run.id ∉ runs.map (·.id)) :
    (ofRuns runs).add run = ofRuns (runs ++ [run]) := by
  rw [add, putEntry_of_not_mem (by rwa [keys_ofRuns])]
  simp [ofRuns]

/-- Of runs with different identifiers, the others have other identifiers than one of
them.  Stated for a run in the middle, which is where one that is recorded anew stands.
-/
theorem id_ne_of_nodup {other : Run} (nodup : ((earlier ++ old :: later).map (·.id)).Nodup)
    (mem : other ∈ earlier ++ later) : other.id ≠ old.id := by
  intro same
  rw [List.map_append, List.map_cons, List.nodup_append, List.nodup_cons] at nodup
  rcases List.mem_append.mp mem with mem | mem
  · exact nodup.2.2 _ (List.mem_map_of_mem mem) _ List.mem_cons_self same
  · exact nodup.2.1.1 (List.mem_map.mpr ⟨other, mem, same⟩)

/-- A run takes the place of the one with its identifier.  Its date may have changed,
but its place in the index does not. -/
theorem add_ofRuns (nodup : ((earlier ++ old :: later).map (·.id)).Nodup) (same : run.id = old.id) :
    (ofRuns (earlier ++ old :: later)).add run = ofRuns (earlier ++ run :: later) := by
  have there : (ofRuns (earlier ++ old :: later)).runs.any (·.1 == run.id) = true := by
    simp [ofRuns, same]
  have kept : ∀ runs : List Run, (∀ other ∈ runs, other.id ≠ old.id) →
      runs.map (fun other => if other.id = old.id then (old.id, run) else (other.id, other)) =
        runs.map fun other => (other.id, other) := fun runs h =>
    List.map_congr_left fun other mem => if_neg (h other mem)
  rw [add, putEntry, if_pos there]
  simp only [ofRuns, List.map_append, List.map_cons, List.map_map, Function.comp_def, same,
    beq_iff_eq, if_true]
  rw [kept earlier fun other mem => id_ne_of_nodup nodup (List.mem_append_left _ mem),
    kept later fun other mem => id_ne_of_nodup nodup (List.mem_append_right _ mem)]

/-- The index of some runs is read back from its stored form.  It is the form in which
the invariants on state directories use the round trip. -/
theorem decodeText_ofRuns (nodup : (runs.map (·.id)).Nodup)
    (h : ∀ run ∈ runs, run.isStorable = true) :
    decodeText (decode .text) (ofRuns runs).toJson.pretty = .ok (ofRuns runs) := by
  refine decodeText_pretty (by rwa [keys_ofRuns]) fun entry listed => ?_
  obtain ⟨run, mem, rfl⟩ := List.mem_map.mp listed
  exact h run mem

end RunIndex

end AliasHoist
