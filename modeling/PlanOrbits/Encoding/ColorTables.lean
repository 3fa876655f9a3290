import PlanOrbits.Encoding.Palette

/-!
# Tables of colours

Another form of palettes. The colours are handed out by a counter, one after the other, and
entered into tables under their keys; a key that its table has already is passed over. The types
come first, then the predicates, then the schemas.

* A type takes two colours, for its constants and for its variables.
* A predicate takes two colours as well, but only the one of its positive literals is entered. The
  colour of its negative literals is found again as the one behind it.
* The counter is a word. It does not run over: there are no tables for a plan that would need
  more colours than the counter can count.
-/

namespace PlanOrbits

open Std (ExtTreeMap)

/-- The colours that were handed out, and the next one. -/
structure ColorTables where
  constants : ExtTreeMap TypeName Color
  vars : ExtTreeMap TypeName Color
  /-- The colour of the positive literals of a predicate, and the number of its parameters. -/
  literals : ExtTreeMap String (Color × Nat)
  schemas : ExtTreeMap String Color
  next : Color

namespace ColorTables

/-! ## Handing out -/

/-- No colour was handed out. -/
def empty : ColorTables := ⟨∅, ∅, ∅, ∅, 0⟩

/-- Hand out a colour, unless the counter would run over. -/
def fresh (t : ColorTables) : Option (Color × ColorTables) :=
  if t.next.toNat + 1 < UInt32.size then some (t.next, { t with next := t.next + 1 }) else none

/-- Hand out the colours of a type. -/
def addType (t : ColorTables) (type : TypeName) : Option ColorTables :=
  if t.constants.contains type then some t
  else do
    let (constant, t) ← t.fresh
    let (variableColor, t) ← t.fresh
    return { t with
      constants := t.constants.insert type constant
      vars := t.vars.insert type variableColor }

/-- Hand out the colours of a predicate. Of two predicates with one name the first counts. -/
def addPredicate (t : ColorTables) (q : Predicate) : Option ColorTables :=
  if t.literals.contains q.name then some t
  else do
    let (positive, t) ← t.fresh
    let (_, t) ← t.fresh
    return { t with literals := t.literals.insert q.name (positive, q.arity) }

/-- Hand out the colour of a schema. -/
def addSchema (t : ColorTables) (schema : String) : Option ColorTables :=
  if t.schemas.contains schema then some t
  else do
    let (color, t) ← t.fresh
    return { t with schemas := t.schemas.insert schema color }

/-- Hand out the colours of a plan. -/
def ofPlan? (p : PartialPlan) : Option ColorTables := do
  let t ← p.domain.types.foldlM addType empty
  let t ← p.domain.predicates.foldlM addPredicate t
  (p.operators.map (·.schema)).foldlM addSchema t

/-! ## Looking up -/

variable (t : ColorTables)

/-- The number of colours that were handed out. -/
def size : Nat := t.next.toNat

/-- The colour of the constants of a type. -/
def constant (type : TypeName) : Except PlanError Color :=
  match t.constants[type]? with
  | some color => .ok color
  | none => .error (.unknownType type)

/-- The colour of the variables of a type. -/
def variableColor (type : TypeName) : Except PlanError Color :=
  match t.vars[type]? with
  | some color => .ok color
  | none => .error (.unknownType type)

/-- The colour of a literal, which must have as many arguments as its predicate. -/
def literal (l : Literal) : Except PlanError Color :=
  match t.literals[l.atom.predicate]? with
  | none => .error (.unknownPredicate l)
  | some (positive, arity) =>
      if arity ≠ l.arity then .error (.arityMismatch l arity)
      else .ok (if l.positive then positive else positive + 1)

/-- The colour of the operators of a schema. -/
def schema (name : String) : Except PlanError Color :=
  match t.schemas[name]? with
  | some color => .ok color
  | none => .error (.unknownSchema name)

end ColorTables

end PlanOrbits
