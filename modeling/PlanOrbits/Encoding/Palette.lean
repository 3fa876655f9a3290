import PlanOrbits.Graph.Basic
import PlanOrbits.Plan.Basic
import PlanOrbits.Plan.Validation

/-!
# Palettes

The colours of the graph that encodes a plan. Each declared type has two colours,
for its constants and for its variables; each predicate has two, for its positive
and its negative literals; each operator schema has one. Colours are numbered in
this order, so that a colour is computed from the place of its key: with `t` types
and `p` predicates,

* type number `i` has the colours `2 i` and `2 i + 1`,
* predicate number `j` has the colours `2 t + 2 j` and `2 t + 2 j + 1`,
* schema number `k` has the colour `2 t + 2 p + k`.
-/

namespace PlanOrbits

/-- The keys of the colours, without repetitions, in the order of their colours. -/
structure Palette where
  types : List TypeName
  predicates : List Predicate
  schemas : List String
  deriving DecidableEq

namespace Palette

/-- The palette of a plan. Of two predicates with one name the first counts. -/
def ofPlan (p : PartialPlan) : Palette where
  types := p.domain.types.eraseDups
  predicates := p.domain.predicates.eraseDupsBy (·.name == ·.name)
  schemas := (p.operators.map (·.schema)).eraseDups

/-- The number of colours. -/
def size (p : Palette) : Nat := 2 * p.types.length + 2 * p.predicates.length + p.schemas.length

/-- The place of a type. -/
def typeIndex (p : Palette) (type : TypeName) : Except PlanError Nat :=
  match p.types.idxOf? type with
  | some i => .ok i
  | none => .error (.unknownType type)

/-- The colour of the constants of a type. -/
def constant (p : Palette) (type : TypeName) : Except PlanError Color :=
  (p.typeIndex type).map fun i => (2 * i).toUInt32

/-- The colour of the variables of a type. -/
def variableColor (p : Palette) (type : TypeName) : Except PlanError Color :=
  (p.typeIndex type).map fun i => (2 * i + 1).toUInt32

/-- The colour of a literal, which must have as many arguments as its predicate. -/
def literal (p : Palette) (l : Literal) : Except PlanError Color :=
  match p.predicates.zipIdx.find? fun (predicate, _) => predicate.name == l.atom.predicate with
  | none => .error (.unknownPredicate l)
  | some (predicate, j) =>
      if predicate.arity ≠ l.arity then .error (.arityMismatch l predicate.arity)
      else
        let positive := 2 * p.types.length + 2 * j
        .ok (if l.positive then positive else positive + 1).toUInt32

/-- The colour of the operators of a schema. -/
def schema (p : Palette) (name : String) : Except PlanError Color :=
  match p.schemas.idxOf? name with
  | some k => .ok (2 * p.types.length + 2 * p.predicates.length + k).toUInt32
  | none => .error (.unknownSchema name)

end Palette

end PlanOrbits
