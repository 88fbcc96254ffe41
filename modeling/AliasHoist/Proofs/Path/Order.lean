import AliasHoist.Path
import Mathlib.Data.List.Forall2
import Mathlib.Data.List.Nodup

/-!
# The order of paths

Paths are compared component by component.  The comparison finds two paths equal exactly when they are
the same path, whatever their spelling, and among different paths it is a strict order.  So a list of
paths in strict order is determined, up to spelling, by which paths are in it.

## Main Definitions

* `Path.IsBefore`: a path comes before another one that is not the same.

## Main Statements

* `Path.precedes_iff`: a path precedes another if it comes before it or is the same;
* `Path.precedes_trans`, `Path.precedes_total`: paths can be sorted;
* `Path.forall₂_same_of_isBefore`: what determines a list of paths in strict order.
-/

namespace AliasHoist

/-! ## Components -/

namespace PathComponent

/-- Components are compared by their kinds first and by their names where the kinds are
the same.  In this form the laws of the comparison are those of lexicographic order. -/
theorem compare_eq_compareLex : compare = compareLex (compareOn rank) (compareOn nameText) := rfl

instance : Std.TransCmp compare := by
  rw [compare_eq_compareLex]
  infer_instance

/-- Components that are found equal are the same. -/
theorem eq_of_compare {a b : PathComponent} (h : a.compare b = .eq) : a = b := by
  rw [compare, Ordering.then_eq_eq, Std.LawfulEqCmp.compare_eq_iff_eq,
    Std.LawfulEqCmp.compare_eq_iff_eq] at h
  cases a <;> cases b <;> simp_all [rank, nameText]

instance : Std.LawfulEqCmp compare where
  eq_of_compare := eq_of_compare

end PathComponent

namespace Path

variable {a b c : Path} {as bs : List Path}

/-- Paths are compared in lexicographic order of their components.  A path that goes on
is behind the one that has ended. -/
theorem compareComponents_eq_compareLex :
    compareComponents = List.compareLex PathComponent.compare := by
  funext as bs
  induction as generalizing bs with
  | nil => cases bs <;> rfl
  | cons a as ih =>
      cases bs with
      | nil => rfl
      | cons b bs => rw [compareComponents, ih, List.compareLex_cons_cons]

instance : Std.TransCmp compareComponents := by
  rw [compareComponents_eq_compareLex]
  infer_instance

instance : Std.LawfulEqCmp compareComponents := by
  rw [compareComponents_eq_compareLex]
  infer_instance

/-! ## Paths -/

theorem same_iff : a.same b = true ↔ a.components = b.components := beq_iff_eq

/-- **A path comes before another one that is not the same.**  The spelling does not
matter: slashes that are repeated and single dots are no components. -/
def IsBefore (a b : Path) : Prop := compareComponents a.components b.components = .lt

theorem IsBefore.trans (h : a.IsBefore b) (h' : b.IsBefore c) : a.IsBefore c :=
  Std.TransCmp.lt_trans h h'

theorem IsBefore.not_same (h : a.IsBefore b) : a.components ≠ b.components := by
  intro same
  have equal : compareComponents b.components b.components = .eq := Std.ReflCmp.compare_self
  rw [IsBefore, same, equal] at h
  contradiction

/-- **A path precedes another** if it comes before it or is the same.  Sorting uses the
one, and the order of what is sorted is told by the other. -/
theorem precedes_iff : a.precedes b = true ↔ a.IsBefore b ∨ a.components = b.components := by
  have equal : compareComponents a.components b.components = .eq ↔ a.components = b.components :=
    Std.LawfulEqCmp.compare_eq_iff_eq
  rw [← equal, precedes, IsBefore, bne_iff_ne]
  cases compareComponents a.components b.components <;> simp

theorem precedes_trans (a b c : Path) (hab : a.precedes b = true) (hbc : b.precedes c = true) :
    a.precedes c = true := by
  rw [precedes_iff] at *
  rcases hab with before | same
  · rcases hbc with before' | same'
    · exact .inl (before.trans before')
    · exact .inl (by rwa [IsBefore, ← same'])
  · rwa [IsBefore, same]

/-- Of two paths one precedes the other, as sorting asks for. -/
theorem precedes_total (a b : Path) : (a.precedes b || b.precedes a) = true := by
  rw [Bool.or_eq_true, precedes_iff, precedes_iff]
  cases order : compareComponents a.components b.components with
  | lt => exact .inl (.inl order)
  | eq => exact .inl (.inr (Std.LawfulEqCmp.eq_of_compare order))
  | gt => exact .inr (.inl (Std.OrientedCmp.lt_of_gt order))

/-! ## Lists of paths -/

/-- No path is twice in a list in strict order. -/
theorem nodup_components_of_isBefore (h : as.Pairwise IsBefore) : (as.map components).Nodup :=
  List.pairwise_map.mpr (h.imp IsBefore.not_same)

/-- **A list of paths in strict order is determined by its paths**, up to their
spelling.  It is a list in order without repetitions, of which there is only one for
each set of paths. -/
theorem forall₂_same_of_isBefore (has : as.Pairwise IsBefore) (hbs : bs.Pairwise IsBefore)
    (mem : ∀ path, path ∈ as.map components ↔ path ∈ bs.map components) :
    List.Forall₂ (fun a b => a.same b = true) as bs := by
  have perm : (as.map components).Perm (bs.map components) :=
    (List.perm_ext_iff_of_nodup (nodup_components_of_isBefore has)
      (nodup_components_of_isBefore hbs)).mpr mem
  have antisymm (a b : List PathComponent) (_ : a ∈ as.map components) (_ : b ∈ bs.map components)
      (before : compareComponents a b = .lt) (after : compareComponents b a = .lt) : a = b :=
    absurd after (Std.OrientedCmp.not_lt_of_lt before)
  have equal : as.map components = bs.map components :=
    perm.eq_of_pairwise antisymm (List.pairwise_map.mpr has) (List.pairwise_map.mpr hbs)
  rw [← List.forall₂_eq_eq_eq, List.forall₂_map_left_iff, List.forall₂_map_right_iff] at equal
  exact equal.imp fun a b same => same_iff.mpr same

end Path

end AliasHoist
