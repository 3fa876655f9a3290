import PlanOrbits.Plan.Literal

/-!
# Occurrences of literals

A literal as it stands in one operator of a plan: among its post-conditions,
where the operator *produces* it, or among its pre-conditions, where the operator
*consumes* it. The two roles have the same form but are never mixed up, so the
role is part of the type.
-/

namespace PlanOrbits

open Std (TransCmp TransOrd LawfulEqOrd)

/-- The two sides of a causal link. -/
inductive Role where
  | producer
  | consumer
  deriving DecidableEq, Repr

/-- A literal of the operator with the given name, in a given role. -/
structure Occurrence (role : Role) where
  operator : String
  literal : Literal
  deriving DecidableEq

/-- A post-condition of an operator. -/
abbrev Producer := Occurrence .producer

/-- A pre-condition of an operator. -/
abbrev Consumer := Occurrence .consumer

namespace Occurrence

variable {role : Role}

/-- An occurrence as it is written: the operator, a colon, the literal. -/
def text (o : Occurrence role) : String := o.operator ++ ":" ++ o.literal.text

instance : Ord (Occurrence role) := ⟨compareLex (compareOn operator) (compareOn literal)⟩

instance : TransOrd (Occurrence role) :=
  inferInstanceAs (TransCmp (compareLex
    (compareOn (@operator role)) (compareOn (@literal role))))

instance : LawfulEqOrd (Occurrence role) where
  eq_of_compare {a b} h := by
    cases a
    cases b
    simpa [compare, compareLex_eq_eq, compareOn_eq_eq] using h

instance : ToJson (Occurrence role) where
  toJson o := Json.record [("operator", toJson o.operator), ("literal", toJson o.literal)]

instance : OfJson (Occurrence role) where
  ofJson? j := do
    let r ← Record.ofJson? ["operator", "literal"] j
    return { operator := ← r.required "operator", literal := ← r.required "literal" }

end Occurrence

end PlanOrbits
