import AliasHoist.Proofs.Runs.Outlasting
import AliasHoist.Proofs.Time.Reaching

/-!
# For how many days runs are kept

Cleaning keeps the runs of the last days.  Any number of days can be asked for, but the calendar does not
reach back so far: from the years 1970 to 9999 it goes back between 96 and 100 million days.  Whether
there is a date so many days ago turns out after the index has been read and before anything is removed,
so that cleaning stops there, or goes on with that date.

## Main Definitions

* `RunIndex.agedOut`: the runs of an index from more than some days ago;
* `KeepsDays`: cleaning goes by the number of days.

## Main Statements

* `spoilsRecords_of_forgetOld`: what is left to do fails only when the records cannot be written;
* `cleaning_keeps_days`: cleaning stops when the calendar does not reach back so many days, and else
  takes the runs from before, which are the fewer the more days are kept.
-/

namespace AliasHoist

open FileSystem

variable {fs loaded after : FileSystem} {state : Path} {index : RunIndex}

/-! ## Runs from more than some days ago -/

/-- **The runs from more than some days ago.**  It is defined for all numbers of days,
also for those that lead out of the calendar, so that monotonicity can be stated without
a side condition. -/
def RunIndex.agedOut (index : RunIndex) (days : Nat) (today : Timestamp) : List Run :=
  index.olderThan (today.daysAgo days)

/-- **The more days are kept, the fewer runs are too old.**  As a sublist this says more
than a comparison of numbers: no run is forgotten for keeping more days that would have
been kept for fewer. -/
theorem RunIndex.agedOut_sublist (index : RunIndex) {days more : Nat} (le : days ≤ more)
    (today : Timestamp) : (index.agedOut more today).Sublist (index.agedOut days today) := by
  unfold agedOut olderThan
  exact List.monotone_filter_right _ fun _ old => Timestamp.before_daysAgo le old

/-! ## Failures of what is left to do -/

/-- Writing an index fails only at files, since what it writes is text that was computed
before. -/
theorem RunIndex.spoilsRecords_of_save {reason : RunError}
    (h : (index.save state).on fs = (.error reason, after)) : reason.spoilsRecords = true := by
  rw [RunIndex.save, Task.on_bind _ fun _ => isDeaf_writeAtomically _ _, Task.on_makeDirectories] at h
  rcases hmake : fs.makeDirectories state with ⟨made, failure | done⟩
  · simp only [hmake, Except.mapError, Prod.mk.injEq, Except.error.injEq] at h
    exact h.1 ▸ rfl
  · simp only [hmake, Except.mapError] at h
    exact spoilsRecords_of_writeAtomically h

/-- **Once old runs have been told apart**, cleaning fails only when the records cannot
be written.  So the failure `beyondCalendar` can only come from the computation of the
cutoff, which is the left to right half of `KeepsDays.beyond_iff`. -/
theorem spoilsRecords_of_forgetOld {old kept : List Run} {reason : RunError}
    (h : (forgetOld state old kept).on fs = (.error reason, after)) :
    reason.spoilsRecords = true := by
  rw [forgetOld, Task.on_bind _ fun _ => (RunIndex.isDeaf_save _ _).bind fun _ => .pure _] at h
  rcases hforget : (forgetRuns state old).on fs with ⟨failure | done, middle⟩
  · simp only [hforget, Prod.mk.injEq, Except.error.injEq] at h
    exact h.1 ▸ spoilsRecords_of_forgetRuns hforget
  · simp only [hforget] at h
    rw [Task.on_bind _ fun _ => .pure _] at h
    rcases hsave : ((kept.foldl RunIndex.add .empty).save state).on middle with ⟨failure | done, last⟩
    · simp only [hsave, Prod.mk.injEq, Except.error.injEq] at h
      exact h.1 ▸ RunIndex.spoilsRecords_of_save hsave
    · simp [hsave] at h

/-! ## Cleaning -/

/-- **Cleaning that keeps the runs of some days.**  It goes beyond the calendar exactly when this does not
reach back so many days; then nothing has been done but to read the index, or to start a new one.  Else it
forgets the runs from more than so many days ago and leaves the others in the index. -/
structure KeepsDays (clean : Task RunError Nat) (state : Path) (days : Nat) (today : Timestamp)
    (index : RunIndex) (fs loaded : FileSystem) : Prop where
  beyond_iff : (∃ beyond, (clean.on fs).1 = .error (.beyondCalendar beyond)) ↔ today.reach < days
  stops : today.reach < days → clean.on fs = (.error (.beyondCalendar days), loaded)
  takes : (days : Int) ≤ today.reach → ∃ old kept, old.Perm (index.agedOut days today) ∧
    (old ++ kept).Perm (index.runs.map (·.2)) ∧ clean.on fs = (forgetOld state old kept).on loaded

/-- **Cleaning keeps the runs of some days, whatever the order** in which the index is
gone through.  The year of today has to be one of the calendar for the cutoff to be out
of it exactly below its first day. -/
theorem keepsDays_cleanRunsIn (loads : (RunIndex.loadOrReset state).on fs = (.ok index, loaded))
    {today : Timestamp} (inCalendar : Date.yearInRange today.date.year = true) (days : Nat)
    {order : List Run → List Run} (same : ∀ runs, (order runs).Perm runs) :
    KeepsDays (cleanRunsIn order days today state) state days today index fs loaded := by
  have cleaned := on_cleanRunsIn_of_loadOrReset loads order days today
  rw [Timestamp.minusDays?_eq inCalendar] at cleaned
  by_cases reaches : (days : Int) ≤ today.reach
  · rw [if_pos reaches] at cleaned
    refine ⟨?_, fun beyond => by omega, fun _ => ⟨_, _, ?_, ?_, cleaned⟩⟩
    · refine iff_of_false ?_ (by omega)
      rintro ⟨beyond, failed⟩
      have spoilt := spoilsRecords_of_forgetOld (cleaned.symm.trans (Prod.ext failed rfl))
      contradiction
    · exact (same _).filter _
    · exact (List.filter_append_perm _ _).trans (same _)
  · rw [if_neg reaches] at cleaned
    have short : today.reach < days := by omega
    exact ⟨iff_of_true ⟨days, by rw [cleaned]⟩ short, fun _ => cleaned, fun enough => by omega⟩

/-- **Cleaning keeps the runs of the last days**, as long as the calendar reaches back so many, and stops
before it removes anything when it does not.  In the years 1970 to 9999 it does for all numbers of days up
to 96465292 and for none from 99398189.  The more days, the fewer runs are forgotten. -/
theorem cleaning_keeps_days (state : Path) (fs loaded : FileSystem) (index : RunIndex)
    (loads : (RunIndex.loadOrReset state).on fs = (.ok index, loaded)) (today : Timestamp)
    (since : 1970 ≤ today.date.year) (upTo : today.date.year ≤ 9999) (days : Nat) :
    (96465292 ≤ today.reach ∧ today.reach < 99398189) ∧
      KeepsDays (cleanRuns days today state) state days today index fs loaded ∧
      (∀ order : List Run → List Run, (∀ runs, (order runs).Perm runs) →
        KeepsDays (cleanRunsIn order days today state) state days today index fs loaded) ∧
      ∀ more, days ≤ more → (index.agedOut more today).Sublist (index.agedOut days today) := by
  have inCalendar : Date.yearInRange today.date.year = true := by
    simp only [Date.yearInRange, Bool.and_eq_true, decide_eq_true_eq]
    omega
  refine ⟨Timestamp.reach_bounds since upTo, ?_, fun order same => ?_, fun more le => ?_⟩
  · rw [cleanRuns]
    exact keepsDays_cleanRunsIn loads inCalendar days fun runs => List.Perm.refl runs
  · exact keepsDays_cleanRunsIn loads inCalendar days same
  · exact index.agedOut_sublist le today

/-! ## Specimens -/

open Specimen in
/-- Of two runs the earlier one is forgotten when 20 days are kept, and both when 5 are. -/
theorem cleaning_keeps_days_specimen : ∃ fs,
    let index := RunIndex.ofRuns [emptyRun "0a1b2c3", laterRun outsideChange]
    (RunIndex.loadOrReset records).on fs = (.ok index, fs) ∧
      index.agedOut 20 dayAfter = [emptyRun "0a1b2c3"] ∧
      index.agedOut 5 dayAfter = [emptyRun "0a1b2c3", laterRun outsideChange] ∧
      KeepsDays (cleanRuns 5 dayAfter records) records 5 dayAfter index fs fs ∧
      (index.agedOut 20 dayAfter).Sublist (index.agedOut 5 dayAfter) := by
  obtain ⟨fs, -, tidy, -⟩ := exists_recorded rfl not_mem_places_outside
  have loads := RunIndex.on_loadOrReset tidy.load_index
  obtain ⟨-, keeps, -, fewer⟩ :=
    cleaning_keeps_days records fs fs _ loads dayAfter (by decide) (by decide) 5
  exact ⟨fs, loads, rfl, rfl, keeps, fewer 20 (by decide)⟩

open Specimen in
/-- **A number of days for which there is no date**: cleaning cannot go by it, even though there is nothing
to forget. -/
theorem cleaning_goes_beyond_calendar :
    ¬ ∀ (state : Path) (fs : FileSystem) (index : RunIndex), RunIndex.load state fs = .ok index →
      ∀ today : Timestamp, 1970 ≤ today.date.year → today.date.year ≤ 9999 →
        ∀ days < 2 ^ 32, ∀ beyond,
          ((cleanRuns days today state).on fs).1 ≠ .error (.beyondCalendar beyond) := by
  intro never
  have loaded : RunIndex.load records (besideFiles "X") = .ok .empty := rfl
  have noDate : dayAfter.minusDays? 4294967295 = none := by decide
  refine never records _ _ loaded dayAfter (by decide) (by decide) 4294967295 (by decide) 4294967295 ?_
  rw [cleanRuns, on_cleanRunsIn loaded, noDate]

end AliasHoist
