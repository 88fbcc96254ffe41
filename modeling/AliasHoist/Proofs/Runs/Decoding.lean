import AliasHoist.Proofs.Json.Bounds
import AliasHoist.Proofs.Runs.RoundTrip
import Mathlib.Data.List.Induction
import Mathlib.Data.List.TakeWhile

/-!
# What stored runs can be

A run that was read from a text can be written and read again: its time is one that the calendar can
write, and its counts fit into 64 bits.  So an index that was read, changed by a run and written is
read back, whoever wrote it first.

## Main Statements

* `Timestamp.isWritable_of_ofText?`: a point in time that was read can be written;
* `Run.isStorable_of_decode`: a run that was read can be stored;
* `RunIndex.isStorable_of_decodeText`, `RunIndex.IsStorable.add`: so can an index that was read, with
  one more run too;
* `Run.decodeText_index`, `RunIndex.decodeText_run`: an index is no run, and a run is no index.
-/

namespace AliasHoist

open Text

/-! ## Points in time -/

/-- A digit stands for a number below ten. -/
theorem digitValue_lt {c : Char} (h : c.isDigit = true) : digitValue c < 10 := by
  have range : c.toNat ≤ 57 := by
    simp only [Char.isDigit, Bool.and_eq_true, decide_eq_true_eq] at h
    exact h.2
  rw [digitValue]
  omega

/-- Digits stand for a number with as many digits.  It bounds what is read from fields
of a fixed width. -/
theorem ofDigits_lt {digits : List Char} (h : ∀ c ∈ digits, c.isDigit = true) :
    ofDigits digits < 10 ^ digits.length := by
  induction digits using List.reverseRecOn with
  | nil => simp
  | append_singleton front last ih =>
      have here := digitValue_lt (h last (by simp))
      have rest := ih fun c mem => h c (by simp [mem])
      rw [ofDigits_append_singleton, List.length_append, List.length_singleton, pow_succ]
      omega

/-- The fraction of a second is less than a second.  Digits beyond the ninth are dropped
and not rounded, so nothing carries over. -/
theorem readFraction_lt {cs rest : List Char} {nanos : Nat}
    (h : readFraction cs = some (nanos, rest)) : nanos < 1000000000 := by
  unfold readFraction at h
  split at h
  · rename_i after
    have digits : ∀ c ∈ takeDigits 9 after, c.isDigit = true := by
      intro c mem
      exact List.mem_takeWhile_imp (List.mem_of_mem_take mem)
    have length : (takeDigits 9 after).length ≤ 9 := by
      rw [takeDigits, List.length_take]
      exact Nat.min_le_left _ _
    have lt := ofDigits_lt digits
    split at h
    · contradiction
    · obtain ⟨rfl, _⟩ := Prod.mk.inj (Option.some.inj h)
      calc ofDigits (takeDigits 9 after) * 10 ^ (9 - (takeDigits 9 after).length)
          < 10 ^ (takeDigits 9 after).length * 10 ^ (9 - (takeDigits 9 after).length) :=
            Nat.mul_lt_mul_of_pos_right lt (Nat.pow_pos (by decide))
        _ = 10 ^ 9 := by rw [← pow_add, Nat.add_sub_cancel' length]
        _ = 1000000000 := by decide
  · obtain ⟨rfl, _⟩ := Prod.mk.inj (Option.some.inj h)
    decide

/-- Only the last second of a minute is prolonged.  A second that is prolonged has twice
the nanoseconds, which is how a leap second is kept. -/
theorem readTime_bounds {cs rest : List Char} {ofDay nanos : Nat}
    (h : readTime cs = some ((ofDay, nanos), rest)) :
    nanos < 1000000000 ∨ (nanos < 2000000000 ∧ ofDay % 60 = 59) := by
  rw [readTime] at h
  simp only [Option.bind_eq_bind, Option.bind_eq_some_iff, Prod.exists] at h
  obtain ⟨hour, _, _, -, _, _, minute, _, _, -, _, _, second, _, _, fraction, _, read, h⟩ := h
  obtain ⟨same, -⟩ := Prod.mk.inj (Option.some.inj h)
  obtain ⟨rfl, rfl⟩ := Prod.mk.inj same
  have lt := readFraction_lt read
  by_cases leap : second = 60
  · right
    simp only [leap, if_true]
    omega
  · left
    simpa [leap] using lt

/-- An offset is made of hours and minutes. -/
theorem readOffsetDigits_mod {cs rest : List Char} {n : Nat}
    (h : readOffsetDigits cs = some (n, rest)) : n % 60 = 0 := by
  rw [readOffsetDigits] at h
  simp only [Option.bind_eq_bind, Option.bind_eq_some_iff, Prod.exists] at h
  obtain ⟨hours, _, _, minutes, _, _, h⟩ := h
  split at h
  · obtain ⟨rfl, -⟩ := Prod.mk.inj (Option.some.inj h)
    omega
  · contradiction

/-- The distance from universal time is a number of minutes.  So taking it off leaves
the second of the minute, and a prolonged second stays at the end of one. -/
theorem readOffset_mod {cs rest : List Char} {offset : Int}
    (h : readOffset cs = some (offset, rest)) : offset % 60 = 0 := by
  have signed : ∀ cs, readOffset.readSigned cs = some (offset, rest) → offset % 60 = 0 := by
    intro cs h
    unfold readOffset.readSigned at h
    split at h
    · split at h
      · obtain ⟨rfl, -⟩ := Prod.mk.inj (Option.some.inj h)
        rfl
      · split at h
        · obtain ⟨⟨n, _⟩, read, h⟩ := Option.map_eq_some_iff.mp h
          obtain ⟨rfl, -⟩ := Prod.mk.inj h
          have := readOffsetDigits_mod read
          omega
        · split at h
          · obtain ⟨⟨n, _⟩, read, h⟩ := Option.map_eq_some_iff.mp h
            obtain ⟨rfl, -⟩ := Prod.mk.inj h
            have := readOffsetDigits_mod read
            omega
          · contradiction
    · contradiction
  unfold readOffset at h
  split at h
  · split at h
    · obtain ⟨rfl, -⟩ := Prod.mk.inj (Option.some.inj h)
      rfl
    · exact signed _ h
  · exact signed _ h

/-- **A point in time that was read can be written.**  Reading has checked the year that
is written, and the offset is taken off before the check. -/
theorem Timestamp.isWritable_of_ofText? {text : String} {t : Timestamp}
    (h : ofText? text = some t) : t.isWritable = true := by
  rw [ofText?] at h
  simp only [Option.bind_eq_bind, Option.bind_eq_some_iff, Prod.exists] at h
  obtain ⟨date, _, _, _, _, _, ofDay, nanos, _, time, offset, _, distance, h⟩ := h
  split at h
  · rename_i valid
    have bounds := readTime_bounds time
    have minutes := readOffset_mod distance
    simp only [Bool.and_eq_true] at valid
    have range := valid.2
    obtain rfl := Option.some.inj h
    simp only [isWritable, range, Bool.true_and, Bool.or_eq_true, Bool.and_eq_true,
      decide_eq_true_eq, beq_iff_eq]
    refine bounds.imp_right (And.imp_right fun last => ?_)
    rw [secondOfDay, Int.fmod_eq_emod_of_nonneg _ (by decide)]
    show ((date.toDays * 86400 + ofDay - offset) % 86400).toNat % 60 = 59
    omega
  · contradiction

/-! ## Records, lists and maps -/

namespace Json

variable {α : Type} {decode : Decoder α} {value : Value} {members : List (String × Value)}

/-- A computation succeeds when its parts do.  It takes a decoder apart field by field.
-/
theorem bind_eq_ok_iff {ε β : Type} {first : Except ε α} {next : α → Except ε β} {b : β} :
    (first >>= next) = .ok b ↔ ∃ a, first = .ok a ∧ next a = .ok b := by
  cases first <;> simp [bind, Except.bind]

/-- A field that was read has a value from which it was decoded. -/
theorem requiredField_eq_ok {name : String} {a : α}
    (fits : ∀ member ∈ members, member.2.Fits) (h : requiredField members name decode = .ok a) :
    ∃ value, value.Fits ∧ decode value = .ok a := by
  rw [requiredField] at h
  cases found : members.lookup name with
  | none => simp [found] at h
  | some value =>
      obtain ⟨before, after, same, _⟩ := List.lookup_eq_some_iff.mp found
      simp only [found] at h
      exact ⟨value, fits (name, value) (by simp [same]), h⟩

/-- The members of a record that was read fit.  A record may be given by its members or
as a list of values; either way the members come from the text. -/
theorem fits_of_recordMembers {source : DataSource} {type : RecordType} (fits : value.Fits)
    (h : recordMembers source type value = .ok members) : ∀ member ∈ members, member.2.Fits := by
  unfold recordMembers at h
  split at h
  · obtain ⟨_, _, same⟩ := bind_eq_ok_iff.mp h
    obtain rfl := Except.ok.inj same
    cases fits with
    | object all => exact all
  · obtain ⟨_, _, same⟩ := bind_eq_ok_iff.mp h
    obtain rfl := Except.ok.inj same
    cases fits with
    | array all =>
        intro member mem
        exact all member.2 (List.of_mem_zip mem).2
  · contradiction

/-- Everything in a list that was read was decoded from an item. -/
theorem exists_of_mem_decodeItems {items : List Value} {read : List α}
    (h : decodeItems decode items = .ok read) :
    ∀ a ∈ read, ∃ item ∈ items, decode item = .ok a := by
  induction items generalizing read with
  | nil =>
      obtain rfl := Except.ok.inj h
      simp
  | cons item rest ih =>
      obtain ⟨first, hfirst, h⟩ := bind_eq_ok_iff.mp h
      obtain ⟨others, hothers, h⟩ := bind_eq_ok_iff.mp h
      obtain rfl := Except.ok.inj h
      intro a mem
      rcases List.mem_cons.mp mem with rfl | mem
      · exact ⟨item, List.mem_cons_self, hfirst⟩
      · obtain ⟨later, hlater, read⟩ := ih hothers a mem
        exact ⟨later, List.mem_cons_of_mem _ hlater, read⟩

/-- What was read as a list was read item by item.  So what all items guarantee holds of
the whole list. -/
theorem exists_of_mem_listOf {read : List α} (fits : value.Fits)
    (h : listOf decode value = .ok read) : ∀ a ∈ read, ∃ item, item.Fits ∧ decode item = .ok a := by
  cases fits with
  | array all =>
      intro a mem
      obtain ⟨item, hitem, hread⟩ := exists_of_mem_decodeItems h a mem
      exact ⟨item, all item hitem, hread⟩
  | _ => simp [listOf] at h

/-- What is in a map after an entry was put is this entry or was there. -/
theorem mem_putEntry {key : String} {a : α} {entries : List (String × α)} {entry : String × α}
    (mem : entry ∈ putEntry key a entries) : entry = (key, a) ∨ entry ∈ entries := by
  rw [putEntry] at mem
  split at mem
  · obtain ⟨old, hold, same⟩ := List.mem_map.mp mem
    split at same
    · exact .inl same.symm
    · exact .inr (same ▸ hold)
  · rcases List.mem_append.mp mem with old | new
    · exact .inr old
    · exact .inl (List.mem_singleton.mp new)

/-- An entry takes the place of one with its key, or comes last.  The order of the keys
is therefore that in which they came first. -/
theorem keys_putEntry (key : String) (a : α) (entries : List (String × α)) :
    (putEntry key a entries).map (·.1) =
      if key ∈ entries.map (·.1) then entries.map (·.1) else entries.map (·.1) ++ [key] := by
  have there : entries.any (·.1 == key) = true ↔ key ∈ entries.map (·.1) := by
    rw [List.any_eq_true, List.mem_map]
    simp only [beq_iff_eq]
  rw [putEntry]
  by_cases known : key ∈ entries.map (·.1)
  · rw [if_pos (there.mpr known), if_pos known, List.map_map]
    refine List.map_congr_left fun entry _ => ?_
    by_cases same : entry.1 = key <;> simp [same]
  · rw [if_neg (mt there.mp known), if_neg known, List.map_append]
    rfl

/-- Putting an entry never makes a key occur twice. -/
theorem nodup_putEntry {key : String} {a : α} {entries : List (String × α)}
    (h : (entries.map (·.1)).Nodup) : ((putEntry key a entries).map (·.1)).Nodup := by
  rw [keys_putEntry]
  split
  · exact h
  · rename_i fresh
    refine List.nodup_append.mpr ⟨h, List.nodup_singleton key, fun old mem new hnew same => ?_⟩
    obtain rfl := List.mem_singleton.mp hnew
    exact fresh (same ▸ mem)

/-- The entry that was put is found.  It is found whether its key was there or not. -/
theorem lookup_putEntry_self (key : String) (a : α) (entries : List (String × α)) :
    (putEntry key a entries).lookup key = some a := by
  by_cases known : key ∈ entries.map (·.1)
  · rw [putEntry, if_pos (by simpa using known)]
    induction entries with
    | nil => simp at known
    | cons entry rest ih =>
        obtain ⟨name, old⟩ := entry
        by_cases same : name = key
        · simp [same]
        · have other : (key == name) = false := by simpa using Ne.symm same
          have later : key ∈ rest.map (·.1) := by
            rw [List.map_cons, List.mem_cons] at known
            exact known.resolve_left (Ne.symm same)
          simpa [same, List.lookup_cons, other] using ih later
  · have fresh : entries.lookup key = none := by
      rw [List.lookup_eq_none_iff]
      intro entry mem
      rw [bne_iff_ne]
      rintro rfl
      exact known (List.mem_map_of_mem mem)
    rw [putEntry_of_not_mem known, List.lookup_append, fresh]
    simp

/-- Other entries are found as before.  With `lookup_putEntry_self` it determines the
map as a function of keys. -/
theorem lookup_putEntry_of_ne {key other : String} (ne : other ≠ key) (a : α)
    (entries : List (String × α)) : (putEntry key a entries).lookup other = entries.lookup other := by
  have differs : (other == key) = false := by simpa using ne
  rw [putEntry]
  split
  · clear * - differs
    induction entries with
    | nil => rfl
    | cons entry rest ih =>
        obtain ⟨name, old⟩ := entry
        simp only [beq_iff_eq] at ih
        by_cases same : name = key
        · simp [same, List.lookup_cons, differs, ih]
        · simp [same, List.lookup_cons, ih]
  · simp [List.lookup_append, List.lookup_cons, differs]

/-- **What is read into a map, member by member**: keys stay unique, and a property that
all decoded values have holds of all entries.  A key that comes again replaces the
earlier value. -/
theorem decodeMembers_spec {read entries : List (String × α)} (P : α → Prop)
    (h : decodeMembers decode entries members = .ok read)
    (nodup : (entries.map (·.1)).Nodup) (held : ∀ entry ∈ entries, P entry.2)
    (reads : ∀ member ∈ members, ∀ a, decode member.2 = .ok a → P a) :
    (read.map (·.1)).Nodup ∧ ∀ entry ∈ read, P entry.2 := by
  induction members generalizing entries with
  | nil =>
      obtain rfl := Except.ok.inj h
      exact ⟨nodup, held⟩
  | cons member rest ih =>
      obtain ⟨first, hfirst, h⟩ := bind_eq_ok_iff.mp h
      refine ih h (nodup_putEntry nodup) (fun entry mem => ?_) fun member mem =>
        reads member (List.mem_cons_of_mem _ mem)
      rcases mem_putEntry mem with rfl | old
      · exact reads member List.mem_cons_self first hfirst
      · exact held entry old

/-- What was read as a map has each key once, with values that were read.  It is
`decodeMembers_spec` from the empty map. -/
theorem mapOf_spec {read : List (String × α)} (P : α → Prop) (fits : value.Fits)
    (h : mapOf decode value = .ok read)
    (reads : ∀ item : Value, item.Fits → ∀ a, decode item = .ok a → P a) :
    (read.map (·.1)).Nodup ∧ ∀ entry ∈ read, P entry.2 := by
  cases fits with
  | object all =>
      exact decodeMembers_spec P h List.nodup_nil (by simp) fun member mem =>
        reads member.2 (all member mem)
  | _ => simp [mapOf] at h

/-- What was decoded from a text was decoded from a value whose numbers fit, as a text
can hold no others. -/
theorem decodeText_eq_ok {text : String} {a : α} (h : decodeText decode text = .ok a) :
    ∃ value : Value, value.Fits ∧ decode value = .ok a := by
  obtain ⟨result, hresult, h⟩ := bind_eq_ok_iff.mp h
  split at h
  · contradiction
  · obtain rfl := Except.ok.inj h
    exact ⟨_, Document.fits_ofText text, hresult⟩

end Json

open Json

/-! ## Runs -/

/-- A count that was read fits into 64 bits. -/
theorem FileChange.fixesApplied_lt_of_decode {source : DataSource} {value : Value}
    {change : FileChange} (fits : value.Fits) (h : decode source value = .ok change) :
    change.fixesApplied < 2 ^ 64 := by
  simp only [decode, bind_eq_ok_iff] at h
  obtain ⟨members, hmembers, _, _, _, _, _, _, _, _, count, hcount, h⟩ := h
  obtain ⟨item, hitem, read⟩ := requiredField_eq_ok (fits_of_recordMembers fits hmembers) hcount
  obtain rfl := Except.ok.inj h
  exact natural_lt hitem read

/-- A time that was read can be written. -/
theorem Run.isWritable_of_timeDecoder {value : Value} {time : Timestamp}
    (h : timeDecoder value = .ok time) : time.isWritable = true := by
  obtain ⟨text, _, h⟩ := bind_eq_ok_iff.mp h
  split at h
  · rename_i found
    obtain rfl := Except.ok.inj h
    exact Timestamp.isWritable_of_ofText? found
  · contradiction

/-- **A run that was read can be stored.**  It makes being storable a property of
everything that was ever on disk, so only runs that are made anew have to be checked. -/
theorem Run.isStorable_of_decode {source : DataSource} {value : Value} {run : Run}
    (fits : value.Fits) (h : decode source value = .ok run) : run.isStorable = true := by
  simp only [decode, bind_eq_ok_iff] at h
  obtain ⟨members, hmembers, _, _, time, htime, _, _, _, _, changes, hchanges, _, _, _, _, h⟩ := h
  have fitting := fits_of_recordMembers fits hmembers
  obtain ⟨_, _, timeRead⟩ := requiredField_eq_ok fitting htime
  obtain ⟨items, hitems, changesRead⟩ := requiredField_eq_ok fitting hchanges
  obtain rfl := Except.ok.inj h
  rw [isStorable, Bool.and_eq_true, List.all_eq_true]
  refine ⟨isWritable_of_timeDecoder timeRead, fun change mem => ?_⟩
  obtain ⟨item, hitem, read⟩ := exists_of_mem_listOf hitems changesRead change mem
  exact decide_eq_true (FileChange.fixesApplied_lt_of_decode hitem read)

/-! ## The index -/

namespace RunIndex

/-- **An index that is read back from its stored form**: each key is there once, and all
runs can be stored.  This is what keeps a rewritten index from losing runs of another
author. -/
structure IsStorable (index : RunIndex) : Prop where
  nodup : (index.runs.map (·.1)).Nodup
  runs : ∀ entry ∈ index.runs, entry.2.isStorable = true

variable {index : RunIndex} {run : Run} {text : String}

/-- An index without runs can be stored. -/
theorem isStorable_empty : IsStorable empty where
  nodup := List.nodup_nil
  runs := by simp [empty]

/-- An index that was read can be stored.  Keys that were there twice in the text are
there once in what was read. -/
theorem isStorable_of_decodeText (h : decodeText (decode .text) text = .ok index) :
    index.IsStorable := by
  obtain ⟨value, fits, h⟩ := decodeText_eq_ok h
  simp only [decode, bind_eq_ok_iff] at h
  obtain ⟨members, hmembers, runs, hruns, h⟩ := h
  obtain ⟨item, hitem, read⟩ := requiredField_eq_ok (fits_of_recordMembers fits hmembers) hruns
  obtain rfl := Except.ok.inj h
  obtain ⟨nodup, all⟩ := mapOf_spec (·.isStorable = true) hitem read fun item hitem run hrun =>
    Run.isStorable_of_decode hitem hrun
  exact ⟨nodup, all⟩

/-- An index that can be read can be stored.  An index that is missing counts as empty.
-/
theorem isStorable_of_load {state : Path} {fs : FileSystem} (h : load state fs = .ok index) :
    index.IsStorable := by
  rw [load] at h
  split at h
  · obtain rfl := Except.ok.inj h
    exact isStorable_empty
  · split at h
    · contradiction
    · rename_i text _
      cases hread : Json.decodeText (decode .text) text with
      | error reason => simp [hread, Except.mapError] at h
      | ok found =>
          obtain rfl : found = index := by simpa [hread, Except.mapError] using h
          exact isStorable_of_decodeText hread

/-- One more run can be stored too, in the place of one with its identifier or at the
end. -/
theorem IsStorable.add (h : index.IsStorable) (storable : run.isStorable = true) :
    (index.add run).IsStorable where
  nodup := nodup_putEntry h.nodup
  runs entry mem := by
    rcases mem_putEntry mem with rfl | old
    · exact storable
    · exact h.runs entry old

/-- **An index that can be stored is read back.**  It is the round trip for an index as
it is after any number of runs were added. -/
theorem IsStorable.decodeText_pretty (h : index.IsStorable) :
    decodeText (decode .text) index.toJson.pretty = .ok index :=
  RunIndex.decodeText_pretty h.nodup h.runs

/-- A run that has been added is found.  The run takes the place of an older version of
itself. -/
theorem find?_add (index : RunIndex) (run : Run) : (index.add run).find? run.id = some run :=
  lookup_putEntry_self run.id run index.runs

/-- Other runs are found as before.  So recording a run is nothing to the others. -/
theorem find?_add_of_ne (index : RunIndex) {run : Run} {id : String} (ne : id ≠ run.id) :
    (index.add run).find? id = index.find? id :=
  lookup_putEntry_of_ne ne run index.runs

/-- A run that is found is listed.  The list is the one that is shown. -/
theorem mem_newestFirst_of_find? {id : String} (h : index.find? id = some run) :
    run ∈ index.newestFirst := by
  obtain ⟨before, after, same, _⟩ := List.lookup_eq_some_iff.mp h
  rw [newestFirst, List.mem_mergeSort, same]
  simp

end RunIndex

/-! ## What is no run, and what is no index -/

/-- Members that a record does not know are skipped, as long as they are well formed. -/
theorem Json.checkMembers_of_unknown {type : RecordType} {members : List (String × Value)}
    {read : List String} (unknown : ∀ member ∈ members, type.fields.lookup member.1 = none)
    (whole : ∀ member ∈ members, member.2.isWellFormed = true) :
    checkMembers type read members = .ok () := by
  induction members with
  | nil => rfl
  | cons member rest ih =>
      rw [checkMembers, unknown member List.mem_cons_self]
      simp only [whole member List.mem_cons_self, if_true]
      exact ih (fun member mem => unknown member (List.mem_cons_of_mem _ mem)) fun member mem =>
        whole member (List.mem_cons_of_mem _ mem)

mutual

/-- A value that can be stored is well formed.  This and the next two lemmas are one
induction over values, lists of items and lists of members. -/
theorem Json.isWellFormed_of_isStorable : ∀ (value : Value), value.isStorable = true →
    value.isWellFormed = true
  | .null, _ | .bool _, _ | .number _, _ | .text _, _ => rfl
  | .array items, h => Json.areWellFormed_of_areStorable items h
  | .object members, h => Json.areWellFormedMembers_of_areStorable members h

/-- Items that can be stored are well formed. -/
theorem Json.areWellFormed_of_areStorable : ∀ (items : List Value),
    Value.areStorable items = true → Value.areWellFormed items = true
  | [], _ => rfl
  | item :: rest, h => by
      rw [Value.areStorable, Bool.and_eq_true] at h
      rw [Value.areWellFormed, Json.isWellFormed_of_isStorable item h.1,
        Json.areWellFormed_of_areStorable rest h.2]
      rfl

/-- Members that can be stored are well formed. -/
theorem Json.areWellFormedMembers_of_areStorable : ∀ (members : List (String × Value)),
    Value.areStorableMembers members = true → Value.areWellFormedMembers members = true
  | [], _ => rfl
  | (_, item) :: rest, h => by
      rw [Value.areStorableMembers, Bool.and_eq_true] at h
      rw [Value.areWellFormedMembers, Json.isWellFormed_of_isStorable item h.1,
        Json.areWellFormedMembers_of_areStorable rest h.2]
      rfl

end

/-- A value that can be stored is decoded as it is.  Failures survive the round trip
through text like successes do. -/
theorem Json.decodeText_pretty_eq_error {α : Type} {decode : Decoder α} {value : Value}
    {reason : DecodeError} (storable : value.isStorable = true) (h : decode value = .error reason) :
    decodeText decode value.pretty = .error reason := by
  rw [decodeText, Document.ofText_pretty storable, h]
  rfl

/-- **An index is no run.**  It lacks an identifier.  Hence a file that is read as a run
has not been overwritten by the index. -/
theorem Run.decodeText_index {index : RunIndex} (h : index.IsStorable) :
    decodeText (Run.decode .text) index.toJson.pretty = .error (.missingField "run_id") := by
  have runs := areStorableMembers_map fun entry mem => Run.isStorable_toJson (h.runs entry mem)
  refine decodeText_pretty_eq_error ?_ ?_
  · simp [RunIndex.toJson, Value.isStorable, Value.areStorableMembers, runs]
  · have whole := areWellFormedMembers_of_areStorable _ runs
    rw [Run.decode, RunIndex.toJson, recordMembers, checkMembers_of_unknown]
    · rfl
    · simp [record, List.lookup_cons]
    · simpa [Value.isWellFormed] using whole

/-- **A run is no index.**  It lacks the table of runs.  Hence recording a run in the
place of the index cannot go unnoticed. -/
theorem RunIndex.decodeText_run {run : Run} (h : run.isStorable = true) :
    decodeText (RunIndex.decode .text) run.toJson.pretty = .error (.missingField "runs") := by
  have storable := Run.isStorable_toJson h
  refine decodeText_pretty_eq_error storable ?_
  have whole := isWellFormed_of_isStorable _ storable
  rw [RunIndex.decode, Run.toJson, recordMembers, checkMembers_of_unknown]
  · rfl
  · simp [record, List.lookup_cons]
  · simpa [Run.toJson, Value.isWellFormed, Value.areWellFormedMembers] using whole

end AliasHoist
