import PlanOrbits.Causal.Occurrence
import Std.Data.ExtTreeSet

/-!
# Causal structures

A causal link says that a producer supports a consumer. A causal structure is a
set of such links, which together justify a partial-order plan; its links are
ordered by producer, then by consumer.
-/

namespace PlanOrbits

open Std (ExtTreeSet TransCmp TransOrd LawfulEqOrd)

/-- A producer and a consumer that it supports. -/
structure CausalLink where
  producer : Producer
  consumer : Consumer
  deriving DecidableEq

namespace CausalLink

/-- A link as it is written, with an arrow. -/
def text (l : CausalLink) : String := l.producer.text ++ " -> " ++ l.consumer.text

instance : Ord CausalLink := ⟨compareLex (compareOn producer) (compareOn consumer)⟩

instance : TransOrd CausalLink :=
  inferInstanceAs (TransCmp (compareLex (compareOn producer) (compareOn consumer)))

instance : LawfulEqOrd CausalLink where
  eq_of_compare {a b} h := by
    cases a
    cases b
    simpa [compare, compareLex_eq_eq, compareOn_eq_eq] using h

instance : ToJson CausalLink where
  toJson l := Json.record [("producer", toJson l.producer), ("consumer", toJson l.consumer)]

instance : OfJson CausalLink where
  ofJson? j := do
    let r ← Record.ofJson? ["producer", "consumer"] j
    return { producer := ← r.required "producer", consumer := ← r.required "consumer" }

end CausalLink

/-- A set of causal links. -/
structure CausalStructure where
  /-- Do the links range over ground operators? -/
  ground : Bool
  links : ExtTreeSet CausalLink

namespace CausalStructure

/-- The structure without links. -/
def empty (ground : Bool) : CausalStructure := { ground, links := ∅ }

/-- The structure of a list of links, with repetitions in any order. -/
def ofLinks (ground : Bool) (links : List CausalLink) : CausalStructure :=
  { ground, links := .ofList links }

/-- Does the structure have the link? -/
def contains (s : CausalStructure) (l : CausalLink) : Bool := s.links.contains l

/-- The structure with one more link. -/
def add (s : CausalStructure) (l : CausalLink) : CausalStructure :=
  { s with links := s.links.insert l }

/-- The structure without a link. -/
def remove (s : CausalStructure) (l : CausalLink) : CausalStructure :=
  { s with links := s.links.erase l }

/-- The number of links. -/
def size (s : CausalStructure) : Nat := s.links.size

/-- Has the structure no links? -/
def isEmpty (s : CausalStructure) : Bool := s.links.isEmpty

/-- The producers that may support a consumer. -/
def producersOf (s : CausalStructure) (c : Consumer) : ExtTreeSet Producer :=
  .ofList ((s.links.toList.filter (·.consumer == c)).map (·.producer))

/-- The consumers that a producer may support. -/
def consumersOf (s : CausalStructure) (p : Producer) : ExtTreeSet Consumer :=
  .ofList ((s.links.toList.filter (·.producer == p)).map (·.consumer))

instance : ToJson CausalStructure where
  toJson s := Json.record [("ground", toJson s.ground), ("links", toJson s.links.toList)]

instance : OfJson CausalStructure where
  ofJson? j := do
    let r ← Record.ofJson? ["ground", "links"] j
    return ofLinks (← r.required "ground") (← r.required "links")

end CausalStructure

end PlanOrbits
