import PlanOrbits.Error
import PlanOrbits.Graph.Basic

/-!
# Sparse identifiers

Outside of this library vertices may have any numbers as identifiers. A
renumbering lists the distinct identifiers in ascending order; the place of an
identifier in the list is its vertex.
-/

namespace PlanOrbits

/-- Distinct identifiers in ascending order. -/
structure Renumbering where
  ids : Array Nat
  ascending : ids.toList.Pairwise (· < ·)
  deriving DecidableEq

namespace Renumbering

/-- The renumbering of a list of identifiers in any order, with repetitions. -/
def ofIds (ids : List Nat) : Renumbering where
  ids := (sortDistinct ids).toArray
  ascending := by
    refine (Std.ExtTreeSet.ordered_toList (t := .ofList ids)).imp ?_
    intro a b h
    exact Nat.compare_eq_lt.1 h

/-- The vertex of an identifier. -/
def dense (r : Renumbering) (id : Nat) : Except GraphError Nat :=
  match r.ids.idxOf? id with
  | some v => .ok v
  | none => .error (.unknownId id)

/-- The identifier of a vertex. -/
def external? (r : Renumbering) (v : Nat) : Option Nat := r.ids[v]?

/-- The number of identifiers. -/
def size (r : Renumbering) : Nat := r.ids.size

end Renumbering

/-- A graph whose vertices have identifiers. -/
structure SparseGraph where
  /-- The identifier and the colour of each vertex. -/
  vertices : List (Nat × Color)
  edges : List (Nat × Nat)
  deriving DecidableEq

namespace SparseGraph

/-- The renumbering of the identifiers. -/
def renumbering (s : SparseGraph) : Renumbering := .ofIds (s.vertices.map Prod.fst)

/-- The graph on the renumbered vertices, and the renumbering. Identifiers must
be distinct, and edges must join two different identifiers that are listed. -/
def densify (s : SparseGraph) : Except GraphError (ColoredGraph × Renumbering) := do
  let r := s.renumbering
  if r.size ≠ s.vertices.length then throw (.duplicateVertex s.vertices.length r.size)
  let colors := r.ids.map fun id => (s.vertices.lookup id).getD 0
  let graph ← s.edges.foldlM (fun (g : ColoredGraph) (a, b) => do
    let low ← r.dense a
    let high ← r.dense b
    (g.addEdge low high).map Prod.fst) (ColoredGraph.ofColors colors)
  return (graph, r)

/-- The identifier and the colour of a vertex in a document. -/
def vertexOfJson? (j : Json) : Option (Nat × Color) := do
  let r ← Record.ofJson? ["id", "color"] j
  return (← r.required "id", ← r.required "color")

instance : OfJson SparseGraph where
  ofJson? j := do
    let r ← Record.ofJson? ["vertices", "edges"] j
    let vertices ←
      match ← r.fields.lookup "vertices" with
      | .array items => items.mapM vertexOfJson?
      | _ => none
    return { vertices, edges := ← r.withDefault "edges" [] }

/-- The graph in the text of a document, and its renumbering. -/
def ofText (text : String) : Except Error (ColoredGraph × Renumbering) :=
  match readJson? SparseGraph text with
  | none => throw (.document .notGraph)
  | some s => s.densify

end SparseGraph

end PlanOrbits
