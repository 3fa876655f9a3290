import PlanOrbits.Diagnostic
import PlanOrbits.Order
import PlanOrbits.Permutation.Marks

/-!
# Coloured graphs

Undirected simple graphs whose vertices are the numbers `0, …, n - 1`, each with
one colour.

* An **edge** is an unordered pair of different vertices, held as its lower and
  its higher end. So adjacency is symmetric and irreflexive by construction, and
  equal graphs are equal as values.
* A **graph** is the list of colours and the set of edges, which all end at
  vertices. The set is ordered, first by lower and then by higher ends.

`hasEdge` is the view of the edges: what adding an edge changes is said by
`hasEdge_insertEdge`.
-/

namespace PlanOrbits

open Std (ExtTreeSet TransCmp TransOrd LawfulEqOrd)

/-! ## Errors -/

/-- Why an operation does not fit a graph. -/
inductive GraphError where
  /-- The graph does not have the vertex. -/
  | unknownVertex (vertex vertexCount : Nat)
  /-- An edge would join a vertex to itself. -/
  | selfLoop (vertex : Nat)
  /-- An identifier was not numbered. -/
  | unknownId (id : Nat)
  /-- Of so many vertices only some have an identifier of their own. -/
  | duplicateVertex (vertices distinct : Nat)
  /-- A vertex has no identifier. -/
  | noExternalId (vertex : Nat)
  deriving DecidableEq, Repr

/-- How an error about a graph is reported. -/
def GraphError.diagnostic : GraphError → Diagnostic
  | unknownVertex vertex vertexCount =>
      Diagnostic.of .graph "unknown-vertex" "vertex does not exist"
        [("vertex", toString vertex), ("vertex_count", toString vertexCount)]
  | selfLoop vertex =>
      Diagnostic.of .graph "self-loop" "coloured graphs are simple" [("vertex", toString vertex)]
  | unknownId id =>
      Diagnostic.of .graph "unknown-vertex" "identifier was not renumbered"
        [("id", toString id)]
  | duplicateVertex vertices distinct =>
      Diagnostic.of .graph "duplicate-vertex" "vertex identifiers must be unique"
        [("vertices", toString vertices), ("distinct", toString distinct)]
  | noExternalId vertex =>
      Diagnostic.of .graph "unknown-vertex" "dense index has no external id"
        [("vertex", toString vertex)]

/-! ## Graphs -/

/-- A colour of vertices. -/
abbrev Color := UInt32

/-- Two different vertices, in no order. -/
structure Edge where
  low : Nat
  high : Nat
  low_lt_high : low < high
  deriving DecidableEq, Repr

namespace Edge

instance : Ord Edge := ⟨compareLex (compareOn low) (compareOn high)⟩

instance : TransOrd Edge :=
  inferInstanceAs (TransCmp (compareLex (compareOn low) (compareOn high)))

instance : LawfulEqOrd Edge where
  eq_of_compare {a b} h := by
    cases a
    cases b
    simpa [compare, compareLex_eq_eq, compareOn_eq_eq] using h

/-- The edge that joins two different vertices. -/
def joining (a b : Nat) (h : a ≠ b) : Edge := ⟨min a b, max a b, by omega⟩

theorem joining_comm (a b : Nat) (h : a ≠ b) : joining a b h = joining b a h.symm := by
  simp [joining, Nat.min_comm, Nat.max_comm]

theorem joining_eq_iff {a b c d : Nat} {h : a ≠ b} {h' : c ≠ d} :
    joining a b h = joining c d h' ↔ (a = c ∧ b = d) ∨ (a = d ∧ b = c) := by
  simp only [joining, Edge.mk.injEq]
  omega

/-- The other end of an edge that ends at `v`. -/
def other? (e : Edge) (v : Nat) : Option Nat :=
  if e.low = v then some e.high else if e.high = v then some e.low else none

/-- The two ends, the lower first. -/
def ends (e : Edge) : Nat × Nat := (e.low, e.high)

end Edge

/-- A coloured graph. -/
structure ColoredGraph where
  colors : Array Color
  edges : ExtTreeSet Edge
  edges_bounded : ∀ e ∈ edges, e.high < colors.size

namespace ColoredGraph

/-- Graphs are equal if their colours and their edges are. -/
@[ext] theorem ext {g h : ColoredGraph} (hc : g.colors = h.colors) (he : g.edges = h.edges) :
    g = h := by
  cases g
  cases h
  simp_all

/-! ## Making graphs -/

/-- The graph without edges whose vertices have the given colours. -/
def ofColors (colors : Array Color) : ColoredGraph where
  colors
  edges := ∅
  edges_bounded := by simp

/-- The graph without vertices. -/
def empty : ColoredGraph := ofColors #[]

/-- The number of vertices. -/
def vertexCount (g : ColoredGraph) : Nat := g.colors.size

/-- The graph with one more vertex, whose number is the former vertex count. -/
def addVertex (g : ColoredGraph) (color : Color) : ColoredGraph where
  colors := g.colors.push color
  edges := g.edges
  edges_bounded e he := by
    have := g.edges_bounded e he
    simp only [Array.size_push]
    omega

/-- Check that the graph has a vertex. -/
def checkVertex (g : ColoredGraph) (v : Nat) : Except GraphError Unit :=
  if v < g.vertexCount then .ok () else .error (.unknownVertex v g.vertexCount)

/-- The graph with an edge between two different vertices of it. -/
def insertEdge (g : ColoredGraph) (a b : Nat) (hab : a ≠ b) (ha : a < g.vertexCount)
    (hb : b < g.vertexCount) : ColoredGraph where
  colors := g.colors
  edges := g.edges.insert (Edge.joining a b hab)
  edges_bounded e he := by
    rw [ExtTreeSet.mem_insert] at he
    rcases he with he | he
    · have := LawfulEqOrd.eq_of_compare he
      subst this
      simp only [vertexCount] at ha hb
      simp only [Edge.joining]
      omega
    · exact g.edges_bounded e he

/-- Are the two vertices joined? A number that is no vertex is joined to none. -/
def hasEdge (g : ColoredGraph) (a b : Nat) : Bool :=
  if h : a ≠ b then g.edges.contains (Edge.joining a b h) else false

/-- Add an edge. The answer says whether it is new. -/
def addEdge (g : ColoredGraph) (a b : Nat) : Except GraphError (ColoredGraph × Bool) :=
  if ha : a < g.vertexCount then
    if hb : b < g.vertexCount then
      if hab : a ≠ b then .ok (g.insertEdge a b hab ha hb, !g.hasEdge a b)
      else .error (.selfLoop a)
    else .error (.unknownVertex b g.vertexCount)
  else .error (.unknownVertex a g.vertexCount)

/-- Add edges one after the other; the first error ends it. -/
def addEdges (g : ColoredGraph) (pairs : List (Nat × Nat)) : Except GraphError ColoredGraph :=
  pairs.foldlM (fun g (a, b) => (g.addEdge a b).map Prod.fst) g

/-! ## Looking at graphs -/

/-- Has the graph no vertices? -/
def isEmpty (g : ColoredGraph) : Bool := g.colors.isEmpty

/-- The edges as pairs of a lower and a higher end, in lexicographic order. -/
def edgeList (g : ColoredGraph) : List (Nat × Nat) := g.edges.toList.map Edge.ends

/-- The number of edges. -/
def edgeCount (g : ColoredGraph) : Nat := g.edges.size

/-- The colour of a vertex. -/
def color (g : ColoredGraph) (v : Nat) : Except GraphError Color :=
  match g.colors[v]? with
  | some c => .ok c
  | none => .error (.unknownVertex v g.vertexCount)

/-- The vertices joined to `v`, in ascending order: those below it are the lower
ends of its edges and come first. -/
def neighbourList (g : ColoredGraph) (v : Nat) : List Nat :=
  g.edges.toList.filterMap (·.other? v)

/-- The lists of the vertices joined to each vertex. -/
def neighbourTable (g : ColoredGraph) : Array (List Nat) :=
  g.edges.toList.foldr
    (fun e table => (table.modify e.low (e.high :: ·)).modify e.high (e.low :: ·))
    (Array.replicate g.vertexCount [])

/-- The vertices joined to a vertex of the graph. -/
def neighbours (g : ColoredGraph) (v : Nat) : Except GraphError (List Nat) := do
  g.checkVertex v
  return g.neighbourList v

/-- The number of vertices joined to a vertex of the graph. -/
def degree (g : ColoredGraph) (v : Nat) : Except GraphError Nat :=
  (g.neighbours v).map List.length

/-- The vertices of one colour, in ascending order. -/
def cell (g : ColoredGraph) (color : Color) : List Nat :=
  (List.range g.vertexCount).filter fun v => g.colors[v]? == some color

/-- The cells of all colours that occur, in ascending order of the colours. -/
def cells (g : ColoredGraph) : List (List Nat) :=
  (sortDistinct g.colors.toList).map g.cell

/-- Does the table list the vertices in another order that keeps colours and
edges? An edge that goes to an edge is enough, since there are as many of them
after as before. -/
def isAutomorphism (g : ColoredGraph) (images : Array Nat) : Bool :=
  images.size == g.vertexCount &&
    arePoints g.vertexCount images.toList &&
    (List.range g.vertexCount).all (fun v => g.colors[v]? == images[v]?.bind (g.colors[·]?)) &&
    g.edgeList.all fun (a, b) =>
      match images[a]?, images[b]? with
      | some a, some b => g.hasEdge a b
      | _, _ => false

/-! ## The table of neighbours -/

/-- The table lists for each vertex the neighbours of it. -/
theorem getElem?_neighbourTable (g : ColoredGraph) (v : Nat) (h : v < g.vertexCount) :
    g.neighbourTable[v]? = some (g.neighbourList v) := by
  unfold neighbourTable neighbourList
  induction g.edges.toList with
  | nil => simp [h]
  | cons e es ih =>
      have := e.low_lt_high
      simp only [List.foldr_cons, Array.getElem?_modify, List.filterMap_cons, Edge.other?, ih]
      by_cases hlow : e.low = v
      · have : ¬e.high = v := by omega
        simp [hlow, this]
      · by_cases hhigh : e.high = v <;> simp [hlow, hhigh]

/-! ## The edges of a changed graph -/

theorem hasEdge_comm (g : ColoredGraph) (a b : Nat) : g.hasEdge a b = g.hasEdge b a := by
  by_cases h : a = b
  · rw [h]
  · simp only [hasEdge, ne_eq, h, not_false_eq_true, dite_true, Ne.symm h, Edge.joining_comm a b]

@[simp] theorem hasEdge_self (g : ColoredGraph) (a : Nat) : g.hasEdge a a = false := by
  simp [hasEdge]

/-- An inserted edge joins its two ends; other pairs are joined as before. -/
theorem hasEdge_insertEdge {g : ColoredGraph} {a b : Nat} {hab : a ≠ b}
    {ha : a < g.vertexCount} {hb : b < g.vertexCount} (c d : Nat) :
    (g.insertEdge a b hab ha hb).hasEdge c d =
      (decide ((a = c ∧ b = d) ∨ (a = d ∧ b = c)) || g.hasEdge c d) := by
  by_cases hcd : c = d
  · subst hcd
    simp only [hasEdge_self, Bool.or_false]
    symm
    rw [decide_eq_false_iff_not]
    omega
  · simp only [hasEdge, ne_eq, hcd, not_false_eq_true, dite_true, insertEdge,
      ExtTreeSet.contains_insert, ← @Edge.joining_eq_iff _ _ _ _ hab hcd]
    congr 1
    rw [Bool.eq_iff_iff]
    simp

end ColoredGraph

end PlanOrbits
