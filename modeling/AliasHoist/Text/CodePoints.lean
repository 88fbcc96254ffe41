/-!
# Sets of code points

A Unicode property is a set of code points, given by its maximal runs in ascending order.  The
tables of the sibling modules are such lists; this module gives them their meaning.
-/

namespace AliasHoist.Text

/-- Whether a code point lies in one of the given inclusive runs. -/
def inRuns (runs : List (Nat × Nat)) (code : Nat) : Bool :=
  runs.any fun (first, last) => first ≤ code && code ≤ last

@[simp] theorem inRuns_nil (code : Nat) : inRuns [] code = false := rfl

@[simp] theorem inRuns_cons (first last code : Nat) (runs : List (Nat × Nat)) :
    inRuns ((first, last) :: runs) code
      = ((first ≤ code && code ≤ last) || inRuns runs code) := rfl

/-- **Membership in a table of runs**, read declaratively. -/
theorem inRuns_eq_true_iff {runs : List (Nat × Nat)} {code : Nat} :
    inRuns runs code = true ↔ ∃ run ∈ runs, run.1 ≤ code ∧ code ≤ run.2 := by
  simp [inRuns, List.any_eq_true]

end AliasHoist.Text
