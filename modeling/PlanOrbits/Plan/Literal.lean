import Std.Data.ExtTreeMap
import PlanOrbits.Json.Decode
import PlanOrbits.Order
import PlanOrbits.Text.LowerCase

/-!
# Literals

The vocabulary of plans from the bottom up: types, constants and variables with types,
predicates, literals, which are predicates applied to variables and possibly negated, and
bindings of variables to constants. All of them are plain values, equal if their parts are.

Types are compared by the normal form of their names: trimmed, then lower case. A `TypeName`
is such a normal form, so that two spellings of one type are equal.

A substitution is a finite map from variables to constants. As a document it is the list of
its bindings in the order of the variables; when a list is read, a later binding of a variable
replaces an earlier one.
-/

namespace PlanOrbits

/-! ## Type names -/

/-- The name of a type, in its normal form. -/
structure TypeName where
  text : String
  normal : ∃ spelling, text = Text.normalName spelling
  deriving DecidableEq

namespace TypeName

/-- The type with a given spelling. -/
def ofSpelling (spelling : String) : TypeName := ⟨Text.normalName spelling, spelling, rfl⟩

instance : Ord TypeName := ⟨compareOn text⟩

instance : Std.TransOrd TypeName := inferInstanceAs (Std.TransCmp (compareOn text))

instance : Std.LawfulEqOrd TypeName where
  eq_of_compare {a b} h := by
    cases a
    cases b
    simpa [compare, compareOn_eq_eq] using h

instance : ToJson TypeName := ⟨fun t => Json.text t.text⟩

instance : OfJson TypeName := ⟨fun j => (ofJson? j : Option String).map ofSpelling⟩

end TypeName

/-! ## Terms -/

open Std (TransCmp TransOrd LawfulEqOrd)

/-- An object of a domain or of a problem. -/
structure Constant where
  name : String
  type : TypeName
  deriving DecidableEq

/-- A parameter of an operator. -/
structure Variable where
  name : String
  type : TypeName
  deriving DecidableEq

/-- A predicate symbol with the types of its parameters. -/
structure Predicate where
  name : String
  params : List TypeName
  deriving DecidableEq

/-- A predicate applied to variables. -/
structure Atom where
  predicate : String
  args : List Variable
  deriving DecidableEq

/-- An atom or its negation. -/
structure Literal where
  atom : Atom
  positive : Bool
  deriving DecidableEq

/-- The number of arguments a predicate takes. -/
def Predicate.arity (p : Predicate) : Nat := p.params.length

namespace Literal

/-- The literal of the opposite polarity. -/
def negated (l : Literal) : Literal := { l with positive := !l.positive }

/-- The number of arguments. -/
def arity (l : Literal) : Nat := l.atom.args.length

/-- A literal as it is written: `!at(?a, ?b)`. -/
def text (l : Literal) : String :=
  (if l.positive then "" else "!") ++ l.atom.predicate ++ "(" ++
    ", ".intercalate (l.atom.args.map (·.name)) ++ ")"

end Literal

/-! ## Orders -/

instance : Ord Constant := ⟨compareLex (compareOn (·.name)) (compareOn (·.type))⟩

instance : TransOrd Constant :=
  inferInstanceAs (TransCmp (compareLex (compareOn Constant.name) (compareOn Constant.type)))

instance : LawfulEqOrd Constant where
  eq_of_compare {a b} h := by
    cases a
    cases b
    simpa [compare, compareLex_eq_eq, compareOn_eq_eq] using h

instance : Ord Variable := ⟨compareLex (compareOn (·.name)) (compareOn (·.type))⟩

instance : TransOrd Variable :=
  inferInstanceAs (TransCmp (compareLex (compareOn Variable.name) (compareOn Variable.type)))

instance : LawfulEqOrd Variable where
  eq_of_compare {a b} h := by
    cases a
    cases b
    simpa [compare, compareLex_eq_eq, compareOn_eq_eq] using h

instance : Ord Predicate := ⟨compareLex (compareOn (·.name)) (compareOn (·.params))⟩

instance : TransOrd Predicate :=
  inferInstanceAs (TransCmp (compareLex (compareOn Predicate.name) (compareOn Predicate.params)))

instance : LawfulEqOrd Predicate where
  eq_of_compare {a b} h := by
    cases a
    cases b
    simpa [compare, compareLex_eq_eq, compareOn_eq_eq] using h

instance : Ord Atom := ⟨compareLex (compareOn (·.predicate)) (compareOn (·.args))⟩

instance : TransOrd Atom :=
  inferInstanceAs (TransCmp (compareLex (compareOn Atom.predicate) (compareOn Atom.args)))

instance : LawfulEqOrd Atom where
  eq_of_compare {a b} h := by
    cases a
    cases b
    simpa [compare, compareLex_eq_eq, compareOn_eq_eq] using h

instance : Ord Literal := ⟨compareLex (compareOn (·.atom)) (compareOn (·.positive))⟩

instance : TransOrd Literal :=
  inferInstanceAs (TransCmp (compareLex (compareOn Literal.atom) (compareOn Literal.positive)))

instance : LawfulEqOrd Literal where
  eq_of_compare {a b} h := by
    cases a
    cases b
    simpa [compare, compareLex_eq_eq, compareOn_eq_eq] using h

/-! ## Documents -/

instance : ToJson Constant where
  toJson c := Json.record [("name", toJson c.name), ("type", toJson c.type)]

instance : OfJson Constant where
  ofJson? j := do
    let r ← Record.ofJson? ["name", "type"] j
    return { name := ← r.required "name", type := ← r.required "type" }

instance : ToJson Variable where
  toJson v := Json.record [("name", toJson v.name), ("type", toJson v.type)]

instance : OfJson Variable where
  ofJson? j := do
    let r ← Record.ofJson? ["name", "type"] j
    return { name := ← r.required "name", type := ← r.required "type" }

instance : ToJson Predicate where
  toJson p := Json.record [("name", toJson p.name), ("params", toJson p.params)]

instance : OfJson Predicate where
  ofJson? j := do
    let r ← Record.ofJson? ["name", "params"] j
    return { name := ← r.required "name", params := ← r.withDefault "params" [] }

instance : ToJson Atom where
  toJson a := Json.record [("predicate", toJson a.predicate), ("args", toJson a.args)]

instance : OfJson Atom where
  ofJson? j := do
    let r ← Record.ofJson? ["predicate", "args"] j
    return { predicate := ← r.required "predicate", args := ← r.withDefault "args" [] }

instance : ToJson Literal where
  toJson l := Json.record [("atom", toJson l.atom), ("value", toJson l.positive)]

instance : OfJson Literal where
  ofJson? j := do
    let r ← Record.ofJson? ["atom", "value"] j
    return { atom := ← r.required "atom", positive := ← r.required "value" }

/-! ## Substitutions -/

/-- Bindings of variables to constants. -/
abbrev Substitution := Std.ExtTreeMap Variable Constant

/-- One binding of a substitution. -/
structure Binding where
  var : Variable
  constant : Constant
  deriving DecidableEq

instance : ToJson Binding where
  toJson b := Json.record [("variable", toJson b.var), ("constant", toJson b.constant)]

instance : OfJson Binding where
  ofJson? j := do
    let r ← Record.ofJson? ["variable", "constant"] j
    return { var := ← r.required "variable", constant := ← r.required "constant" }

namespace Substitution

/-- The substitution of a list of bindings, the last of each variable. -/
def ofBindings (bs : List Binding) : Substitution :=
  bs.foldl (fun s b => s.insert b.var b.constant) ∅

/-- The bindings in the order of the variables. -/
def bindings (s : Substitution) : List Binding := s.toList.map fun (v, c) => ⟨v, c⟩

instance : ToJson Substitution := ⟨fun s => toJson (bindings s)⟩

instance : OfJson Substitution := ⟨fun j => (ofJson? j : Option (List Binding)).map ofBindings⟩

end Substitution

end PlanOrbits
