import PlanOrbits.Diagnostic
import PlanOrbits.Plan.Basic
import PlanOrbits.Plan.Operator

/-!
# Well-formed plans

Why a plan is refused (`PlanError`): by the validation of its structure, or by the encoding as
a graph, which needs declared types, predicates and bindings.

The rules of a plan's structure: the brackets have their names and no conditions
on their outer side, operator names are distinct, and every operator declares the
variables of its literals. `PartialPlan.validate` reports the first rule broken;
`PartialPlan.WellFormed` states the rules.
-/

namespace PlanOrbits

/-! ## Errors in plans -/

/-- Why a plan is refused. -/
inductive PlanError where
  /-- The opening bracket has another name, or pre-conditions. -/
  | malformedInit (name : String)
  /-- The closing bracket has another name, or post-conditions. -/
  | malformedGoal (name : String)
  /-- Two operators have one name. -/
  | duplicateOperator (name : String)
  /-- A literal of an operator has an argument that the operator does not declare. -/
  | undeclaredVariable (operator : String) (literal : Literal) (var : Variable)
  /-- A constant or variable has a type that the domain does not declare. -/
  | unknownType (type : TypeName)
  /-- A literal has a predicate that the domain does not declare. -/
  | unknownPredicate (literal : Literal)
  /-- A literal has more or fewer arguments than its predicate. -/
  | arityMismatch (literal : Literal) (expected : Nat)
  /-- No operator of the plan has the schema. -/
  | unknownSchema (schema : String)
  /-- An argument of a literal is bound to no constant. -/
  | unboundArgument (literal : Literal) (var : Variable)
  /-- An argument of a literal is bound to a constant that is not declared. -/
  | unknownConstant (literal : Literal) (constant : Constant)
  deriving DecidableEq

/-- The name of the opening bracket of a plan. -/
def initName : String := "init"

/-- The name of the closing bracket of a plan. -/
def goalName : String := "goal"

/-- How a refused plan is reported. -/
def PlanError.diagnostic : PlanError → Diagnostic
  | malformedInit name =>
      (Diagnostic.of .plan "init-operator" "initial pseudo-operator is malformed"
        [("name", name)]).withHint ("expected \x60" ++ initName ++ "\x60 with no pre-conditions")
  | malformedGoal name =>
      (Diagnostic.of .plan "goal-operator" "goal pseudo-operator is malformed"
        [("name", name)]).withHint ("expected \x60" ++ goalName ++ "\x60 with no post-conditions")
  | duplicateOperator name =>
      Diagnostic.of .plan "duplicate-operator" "operator names must be unique"
        [("operator", name)]
  | undeclaredVariable operator literal var =>
      Diagnostic.of .plan "undeclared-variable" "literal uses an undeclared variable"
        [("operator", operator), ("literal", literal.text), ("variable", var.name)]
  | unknownType type =>
      (Diagnostic.of .plan "unknown-type" "type is not declared by the domain"
        [("type", type.text)]).withHint "list every constant and variable type in domain.types"
  | unknownPredicate literal =>
      Diagnostic.of .plan "unknown-predicate" "literal uses an undeclared predicate"
        [("literal", literal.text)]
  | arityMismatch literal expected =>
      Diagnostic.of .plan "arity-mismatch" "literal arity differs from its predicate"
        [("literal", literal.text), ("expected", toString expected)]
  | unknownSchema schema =>
      Diagnostic.of .plan "unknown-schema" "operator schema has no colour" [("schema", schema)]
  | unboundArgument literal var =>
      Diagnostic.of .plan "unbound-argument" "literal argument has no binding"
        [("literal", literal.text), ("variable", var.name)]
  | unknownConstant literal constant =>
      Diagnostic.of .plan "unknown-constant" "binding names an undeclared constant"
        [("literal", literal.text), ("constant", constant.name)]

/-! ## Validation -/

/-- Every argument of every condition is declared, by name and type. -/
def Operator.DeclaresVariables (op : Operator) : Prop :=
  ∀ l ∈ op.preconditions ++ op.postconditions, ∀ v ∈ l.atom.args, v ∈ op.vars

namespace PartialPlan

/-- The rules of a plan's structure. -/
structure WellFormed (p : PartialPlan) : Prop where
  init_name : p.init.name = initName
  init_pre : p.init.preconditions = []
  goal_name : p.goal.name = goalName
  goal_post : p.goal.postconditions = []
  names_nodup : (p.operators.map (·.name)).Nodup
  declares : ∀ op ∈ p.operators, op.DeclaresVariables

/-- Check operators that come after operators of the names `seen`. -/
def checkOperators (seen : List String) : List Operator → Except PlanError Unit
  | [] => .ok ()
  | op :: rest =>
      if seen.contains op.name then .error (.duplicateOperator op.name)
      else
        match op.undeclared? with
        | some (literal, var) => .error (.undeclaredVariable op.name literal var)
        | none => checkOperators (op.name :: seen) rest

/-- Report the first rule that the plan breaks. -/
def validate (p : PartialPlan) : Except PlanError Unit :=
  if p.init.name ≠ initName ∨ p.init.preconditions ≠ [] then .error (.malformedInit p.init.name)
  else if p.goal.name ≠ goalName ∨ p.goal.postconditions ≠ [] then
    .error (.malformedGoal p.goal.name)
  else checkOperators [] p.operators

/-- A plan of the given parts, validated. -/
def build (domain : Domain) (problem : Problem) (init goal : Operator) (steps : List Operator)
    (substitution : Substitution) : Except PlanError PartialPlan := do
  let plan : PartialPlan := { domain, problem, init, goal, steps, substitution }
  plan.validate
  return plan

end PartialPlan

end PlanOrbits
