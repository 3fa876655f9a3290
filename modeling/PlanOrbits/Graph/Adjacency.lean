import Mathlib.Algebra.GroupWithZero.Nat
import PlanOrbits.Graph.Basic

/-!
# Graphs as sets of neighbours

Another form of coloured graphs: the list of colours, and for each vertex the set of its
neighbours. Every edge then stands in two sets, one at each end. Nothing in the form itself says
that both are there; the operations have to see to it. They change a graph in place: also a
refused edge leaves a graph behind.

* To add an edge is to write each end into the set of the other. Whether it is new is read off
  the first of the two sets alone.
* The edges are counted as half of all that stands in the sets.
* They are listed vertex by vertex, each with its greater neighbours.

Graphs in both forms are built by the same calls (`GraphCall`), which give the same answers.
-/

namespace PlanOrbits

open Std (ExtTreeSet)

/-! ## Calls -/

/-- A call that changes a graph. -/
inductive GraphCall where
  /-- Add a vertex. -/
  | vertex (color : Color)
  /-- Add an edge. -/
  | edge (a b : Nat)
  deriving DecidableEq, Repr

/-- What a call answers. -/
inductive GraphAnswer where
  /-- The number of the vertex. -/
  | vertex (v : Nat)
  /-- Is the edge new? -/
  | edge (isNew : Bool)
  /-- Why there can be no such edge. -/
  | refused (cause : GraphError)
  deriving DecidableEq, Repr

/-- What calls, one after the other, make of a graph, and what they answer. -/
def answerAll {σ : Type} (answer : σ → GraphCall → σ × GraphAnswer) :
    σ → List GraphCall → σ × List GraphAnswer
  | s, [] => (s, [])
  | s, call :: calls =>
      let (s, first) := answer s call
      let (s, others) := answerAll answer s calls
      (s, first :: others)

/-- A call to a graph that is a set of edges. -/
def ColoredGraph.answer (g : ColoredGraph) : GraphCall → ColoredGraph × GraphAnswer
  | .vertex color => (g.addVertex color, .vertex g.vertexCount)
  | .edge a b =>
      match g.addEdge a b with
      | .ok (g', isNew) => (g', .edge isNew)
      | .error cause => (g, .refused cause)

/-! ## Sets of neighbours -/

/-- The colours of the vertices, and the set of neighbours of each. -/
structure AdjacencySets where
  colors : Array Color
  sets : Array (ExtTreeSet Nat)

namespace AdjacencySets

/-- The graph without edges whose vertices have the given colours. -/
def ofColors (colors : Array Color) : AdjacencySets where
  colors
  sets := Array.replicate colors.size ∅

/-- The graph without vertices. -/
def empty : AdjacencySets := ⟨#[], #[]⟩

/-- The number of vertices. -/
def vertexCount (t : AdjacencySets) : Nat := t.colors.size

/-- The set of a vertex. A number that is no vertex has no neighbours. -/
def neighboursOf (t : AdjacencySets) (v : Nat) : ExtTreeSet Nat := t.sets[v]?.getD ∅

/-- Does the second vertex stand in the set of the first? -/
def hasEdge (t : AdjacencySets) (a b : Nat) : Bool := (t.neighboursOf a).contains b

/-- Add a vertex, whose number is the answer. -/
def addVertex (t : AdjacencySets) (color : Color) : AdjacencySets × Nat :=
  let colors := t.colors.push color
  ({ colors, sets := t.sets.push ∅ }, colors.size - 1)

/-- Check that the graph has a vertex. -/
def checkVertex (t : AdjacencySets) (v : Nat) : Except GraphError Unit :=
  if v < t.vertexCount then .ok () else .error (.unknownVertex v t.vertexCount)

/-- Write a vertex into the set of another. The answer says whether it is new there. -/
def insert (t : AdjacencySets) (a b : Nat) : AdjacencySets × Bool :=
  ({ t with sets := t.sets.modify a (·.insert b) }, !t.hasEdge a b)

/-- Add an edge: each end to the set of the other. -/
def addEdge (t : AdjacencySets) (a b : Nat) : AdjacencySets × Except GraphError Bool :=
  match t.checkVertex a, t.checkVertex b with
  | .error cause, _ => (t, .error cause)
  | .ok (), .error cause => (t, .error cause)
  | .ok (), .ok () =>
      if a = b then (t, .error (.selfLoop a))
      else
        let (t, isNew) := t.insert a b
        let (t, _) := t.insert b a
        (t, .ok isNew)

/-- A call to a graph that is kept as sets. -/
def answer (t : AdjacencySets) : GraphCall → AdjacencySets × GraphAnswer
  | .vertex color =>
      let (t, v) := t.addVertex color
      (t, .vertex v)
  | .edge a b =>
      match t.addEdge a b with
      | (t, .ok isNew) => (t, .edge isNew)
      | (t, .error cause) => (t, .refused cause)

/-- The number of edges. -/
def edgeCount (t : AdjacencySets) : Nat := (t.sets.toList.map ExtTreeSet.size).sum / 2

/-- The edges as pairs of a lower and a higher end. -/
def edgeList (t : AdjacencySets) : List (Nat × Nat) :=
  t.sets.toList.zipIdx.flatMap fun (set, a) => (set.toList.filter (a < ·)).map fun b => (a, b)

/-- The neighbours of a vertex of the graph, in ascending order. -/
def neighbours (t : AdjacencySets) (v : Nat) : Except GraphError (List Nat) := do
  t.checkVertex v
  return (t.neighboursOf v).toList

/-- The number of neighbours of a vertex of the graph. -/
def degree (t : AdjacencySets) (v : Nat) : Except GraphError Nat := do
  t.checkVertex v
  return (t.neighboursOf v).size

end AdjacencySets

end PlanOrbits
