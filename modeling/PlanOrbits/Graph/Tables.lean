import Mathlib.Data.List.Defs
import PlanOrbits.Graph.Renumbering

/-!
# Tables of identifiers

Another form of renumberings, and of the way from vertices with identifiers to a graph.

* The identifiers are sorted. Equal ones then stand side by side, and one of them is kept. A second
  table leads from an identifier to its vertex, so that no list has to be searched.
* The colours are written into a table of zeros, one vertex after the other, each at the place of
  its identifier.
* The edges are added one after the other.
-/

namespace PlanOrbits

open Std (ExtTreeMap)

/-- The identifiers in ascending order, and the vertex of each. -/
structure IdTables where
  dense : ExtTreeMap Nat Nat
  external : Array Nat

namespace IdTables

/-- The tables of identifiers that ascend. -/
def ofAscending (external : List Nat) : IdTables where
  dense := external.zipIdx.foldl (fun table entry => table.insert entry.1 entry.2) ∅
  external := external.toArray

/-- The tables of a list of identifiers in any order, with repetitions. -/
def ofIds (ids : List Nat) : IdTables := ofAscending (ids.mergeSort.destutter (· ≠ ·))

/-- The vertex of an identifier. -/
def vertexOf (t : IdTables) (id : Nat) : Except GraphError Nat :=
  match t.dense[id]? with
  | some v => .ok v
  | none => .error (.unknownId id)

/-- The identifier of a vertex. -/
def idOf? (t : IdTables) (v : Nat) : Option Nat := t.external[v]?

/-- The number of identifiers. -/
def size (t : IdTables) : Nat := t.external.size

/-- Write the colour of a vertex into a table, at the place of its identifier. -/
def place (t : IdTables) (colors : Array Color) (vertex : Nat × Color) :
    Except GraphError (Array Color) := do
  let v ← t.vertexOf vertex.1
  return colors.setIfInBounds v vertex.2

/-- Add the edge between two identifiers. -/
def join (t : IdTables) (g : ColoredGraph) (edge : Nat × Nat) :
    Except GraphError ColoredGraph := do
  let low ← t.vertexOf edge.1
  let high ← t.vertexOf edge.2
  (g.addEdge low high).map Prod.fst

end IdTables

/-- The graph of vertices with identifiers, and the tables of the identifiers. -/
def SparseGraph.assemble (s : SparseGraph) : Except GraphError (ColoredGraph × IdTables) := do
  let t := IdTables.ofIds (s.vertices.map Prod.fst)
  if t.size ≠ s.vertices.length then throw (.duplicateVertex s.vertices.length t.size)
  let colors ← s.vertices.foldlM t.place (Array.replicate s.vertices.length 0)
  let graph ← s.edges.foldlM t.join (ColoredGraph.ofColors colors)
  return (graph, t)

end PlanOrbits
