import Std.Data.ExtTreeSet

/-!
# Orders by fields

Records are ordered field by field, in the order of declaration. The comparison
of such a record is a chain of `compareLex` over `compareOn`; the lemma here
turns "the chain says equal" into equations between fields.
-/

namespace PlanOrbits

/-- Comparing by a key says equal exactly if the keys are equal. -/
theorem compareOn_eq_eq {α β : Type} [Ord β] [Std.LawfulEqOrd β]
    {key : α → β} {a b : α} : compareOn key a b = .eq ↔ key a = key b := by
  simp [compareOn]

/-- The distinct members of a list in ascending order. -/
def sortDistinct {α : Type} [Ord α] [Std.TransOrd α] (xs : List α) : List α :=
  (Std.ExtTreeSet.ofList xs).toList

end PlanOrbits
