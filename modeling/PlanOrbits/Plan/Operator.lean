import PlanOrbits.Causal.Occurrence
import PlanOrbits.Text.Blank

/-!
# Operators

An operator is a step of a plan: a schema applied to variables of its own, with
the literals it needs and the literals it makes true. The name of a step begins
with an index and an underscore, which are not part of its schema's name.
-/

namespace PlanOrbits

open Std (TransCmp TransOrd LawfulEqOrd)

/-- A step of a plan, or one of its two brackets. -/
structure Operator where
  name : String
  vars : List Variable
  preconditions : List Literal
  postconditions : List Literal
  deriving DecidableEq

namespace Operator

/-- The name behind the first underscore; the whole name if it has none. -/
def schema (op : Operator) : String :=
  match Text.cutAt? '_' op.name.toList with
  | some (_, rest) => String.ofList rest
  | none => op.name

/-- The post-conditions as occurrences, in order of declaration. -/
def producers (op : Operator) : List Producer := op.postconditions.map (⟨op.name, ·⟩)

/-- The pre-conditions as occurrences, in order of declaration. -/
def consumers (op : Operator) : List Consumer := op.preconditions.map (⟨op.name, ·⟩)

/-- The first literal and argument that is none of the declared variables; the
pre-conditions come first. -/
def undeclared? (op : Operator) : Option (Literal × Variable) :=
  (op.preconditions ++ op.postconditions).findSome? fun l =>
    (l.atom.args.find? fun v => !op.vars.contains v).map (l, ·)

/-- The fields in the order in which operators are compared. -/
def order : Operator → Operator → Ordering :=
  compareLex (compareOn name) <| compareLex (compareOn vars) <|
    compareLex (compareOn preconditions) (compareOn postconditions)

instance : Ord Operator := ⟨order⟩

instance : TransOrd Operator :=
  inferInstanceAs (TransCmp (compareLex (compareOn name) <| compareLex (compareOn vars) <|
    compareLex (compareOn preconditions) (compareOn postconditions)))

instance : LawfulEqOrd Operator where
  eq_of_compare {a b} h := by
    cases a
    cases b
    simpa [compare, order, compareLex_eq_eq, compareOn_eq_eq] using h

instance : ToJson Operator where
  toJson op :=
    Json.record [
      ("name", toJson op.name),
      ("variables", toJson op.vars),
      ("preconditions", toJson op.preconditions),
      ("postconditions", toJson op.postconditions)]

instance : OfJson Operator where
  ofJson? j := do
    let r ← Record.ofJson? ["name", "variables", "preconditions", "postconditions"] j
    return {
      name := ← r.required "name"
      vars := ← r.withDefault "variables" []
      preconditions := ← r.withDefault "preconditions" []
      postconditions := ← r.withDefault "postconditions" [] }

end Operator

end PlanOrbits
