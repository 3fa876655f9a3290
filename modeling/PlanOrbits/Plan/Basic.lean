import PlanOrbits.Plan.Operator
import PlanOrbits.Plan.Literal

/-!
# Partial-order plans

A plan with its domain, its problem, its steps, and the constants that its
variables stand for. Two operators bracket the steps: `init` produces the initial
state and `goal` consumes the goal. A plan read from a document may break every
rule about names and variables; `Plan.Validation` says what the rules are.
-/

namespace PlanOrbits

/-- The types, predicates and constants of a planning domain. -/
structure Domain where
  name : String
  types : List TypeName
  predicates : List Predicate
  constants : List Constant
  deriving DecidableEq

/-- The objects of a planning problem. -/
structure Problem where
  name : String
  objects : List Constant
  deriving DecidableEq

/-- A partial-order plan. -/
structure PartialPlan where
  domain : Domain
  problem : Problem
  init : Operator
  goal : Operator
  steps : List Operator
  substitution : Substitution

namespace PartialPlan

/-- The opening bracket, the steps in plan order, the closing bracket. -/
def operators (p : PartialPlan) : List Operator := p.init :: p.steps ++ [p.goal]

/-- Does the operator have the name of one of the two brackets? -/
def isPseudo (p : PartialPlan) (op : Operator) : Bool :=
  op.name == p.init.name || op.name == p.goal.name

/-- The constants of the domain, then the objects of the problem. -/
def constants (p : PartialPlan) : List Constant := p.domain.constants ++ p.problem.objects

end PartialPlan

/-! ## Documents -/

instance : ToJson Domain where
  toJson d :=
    Json.record [
      ("name", toJson d.name),
      ("types", toJson d.types),
      ("predicates", toJson d.predicates),
      ("constants", toJson d.constants)]

instance : OfJson Domain where
  ofJson? j := do
    let r ← Record.ofJson? ["name", "types", "predicates", "constants"] j
    return {
      name := ← r.required "name"
      types := ← r.withDefault "types" []
      predicates := ← r.withDefault "predicates" []
      constants := ← r.withDefault "constants" [] }

instance : ToJson Problem where
  toJson p := Json.record [("name", toJson p.name), ("objects", toJson p.objects)]

instance : OfJson Problem where
  ofJson? j := do
    let r ← Record.ofJson? ["name", "objects"] j
    return { name := ← r.required "name", objects := ← r.withDefault "objects" [] }

instance : ToJson PartialPlan where
  toJson p :=
    Json.record [
      ("domain", toJson p.domain),
      ("problem", toJson p.problem),
      ("init", toJson p.init),
      ("goal", toJson p.goal),
      ("steps", toJson p.steps),
      ("substitution", toJson p.substitution)]

instance : OfJson PartialPlan where
  ofJson? j := do
    let r ← Record.ofJson? ["domain", "problem", "init", "goal", "steps", "substitution"] j
    return {
      domain := ← r.required "domain"
      problem := ← r.required "problem"
      init := ← r.required "init"
      goal := ← r.required "goal"
      steps := ← r.withDefault "steps" []
      substitution := ← r.withDefault "substitution" (∅ : Substitution) }

end PlanOrbits
