import PlanOrbits.Error
import PlanOrbits.Graph.Renumbering
import PlanOrbits.Permutation.Cycles
import PlanOrbits.Transcript.Reader

/-!
# Automorphism groups

What an engine finds out about a graph: generators of its automorphism group, the
orbits of its vertices, and the order of the group. `Automorphisms.ofParts` checks
that the parts fit together; a value read from a document is taken as it stands.
-/

namespace PlanOrbits

/-- The automorphisms of a graph with `vertexCount` vertices. -/
structure Automorphisms where
  group : Group
  orbits : List (List Nat)
  groupOrder : UInt64
  vertexCount : Nat
  deriving DecidableEq

namespace Automorphisms

/-- Mark the vertices of orbits, the first of which has the place `index`. -/
def markOrbits {n : Nat} (marks : Marks n) (index : Nat) :
    List (List Nat) → Except TranscriptError (Marks n)
  | [] => .ok marks
  | orbit :: rest =>
      if orbit.isEmpty then .error (.emptyOrbit index)
      else
        match marks.addAll 0 orbit with
        | .ok marks => markOrbits marks (index + 1) rest
        | .error offence =>
            .error <| match offence.fault with
              | .outOfRange => .unknownVertex offence.point n
              | .repeated => .repeatedVertex offence.point

/-- Check that the orbits are not empty and contain every vertex once. -/
def checkOrbits (n : Nat) (orbits : List (List Nat)) : Except TranscriptError Unit := do
  let marks ← markOrbits (Marks.empty n) 0 orbits
  match marks.missing? with
  | some v => throw (.uncoveredVertex v)
  | none => return ()

/-- The automorphisms with the given parts: the generators must act on the
vertices, and the orbits must be a partition of them. -/
def ofParts (group : Group) (orbits : List (List Nat)) (groupOrder : UInt64)
    (vertexCount : Nat) : Except TranscriptError Automorphisms := do
  if group.domainSize ≠ vertexCount then throw (.generatorDomain vertexCount group.domainSize)
  checkOrbits vertexCount orbits
  return { group, orbits, groupOrder, vertexCount }

/-- The automorphisms of a graph that has only the identity. -/
def trivial (vertexCount : Nat) : Automorphisms :=
  { group := Group.trivial vertexCount, orbits := (List.range vertexCount).map ([·]),
    groupOrder := 1, vertexCount }

/-- What a transcript says of a graph with so many vertices. -/
def ofTranscript (t : Transcript) (vertexCount : Nat) : Except Error Automorphisms := do
  let generators ← t.generators.mapM (Permutation.ofCycles vertexCount ·)
  let group ← Group.ofGenerators vertexCount generators
  ofParts group t.orbits t.groupOrder vertexCount

/-- The number of vertices of each orbit. -/
def orbitSizes (a : Automorphisms) : List Nat := a.orbits.map List.length

instance : ToJson Automorphisms where
  toJson a :=
    Json.record [
      ("group", toJson a.group),
      ("orbits", toJson a.orbits),
      ("group_order", toJson a.groupOrder),
      ("vertex_count", toJson a.vertexCount)]

instance : OfJson Automorphisms where
  ofJson? j := do
    let r ← Record.ofJson? ["group", "orbits", "group_order", "vertex_count"] j
    return {
      group := ← r.required "group"
      orbits := ← r.required "orbits"
      groupOrder := ← r.required "group_order"
      vertexCount := ← r.required "vertex_count" }

end Automorphisms

/-!
## Measures of symmetry

Five numbers that say how symmetric a graph is, computed from the sizes of the
orbits and the order of the group. A graph without vertices has the value zero of
each measure.
-/

/-- The measures of symmetry of a graph. -/
structure Metrics where
  /-- The entropy of the distribution of vertices to orbits, in bits. -/
  graphEntropy : Float
  /-- The index of Mowshowitz. -/
  mowshowitzIndex : Float
  /-- The largest orbit, relative to the graph. -/
  vertexIndex : Float
  /-- The smallest orbit, relative to the largest. -/
  homogeneityIndex : Float
  /-- The mean of the orbits, relative to the largest. -/
  deviationIndex : Float

namespace Metrics

/-- The sum of a list in order, from the neutral element of addition, which is
the negative zero. -/
def sum (xs : List Float) : Float := xs.foldl (· + ·) (-0.0)

/-- A number times its binary logarithm. -/
def timesLog (x : Float) : Float := x * x.log2

end Metrics

namespace Automorphisms

variable (a : Automorphisms)

/-- The sizes of the orbits as floating point numbers. -/
def sizes : List Float := a.orbitSizes.map Float.ofNat

/-- The number of vertices as a floating point number. -/
def vertices : Float := Float.ofNat a.vertexCount

/-- The size of the largest orbit. -/
def largest : Float := Float.ofNat (a.orbitSizes.max?.getD 0)

/-- The size of the smallest orbit. -/
def smallest : Float := Float.ofNat (a.orbitSizes.min?.getD 0)

/-- The sum of `- p log p` over the orbits, where `p` is the share of an orbit. -/
def graphEntropy : Float :=
  if a.vertexCount = 0 then 0.0
  else -Metrics.sum (a.sizes.map fun s => Metrics.timesLog (s / a.vertices))

/-- The mean over the vertices of the logarithm of their orbit's size, plus the
logarithm of the group order. -/
def mowshowitzIndex : Float :=
  if a.vertexCount = 0 then 0.0
  else Metrics.sum (a.sizes.map Metrics.timesLog) / a.vertices + (max a.groupOrder 1).toFloat.log2

/-- The share of the largest orbit. -/
def vertexIndex : Float :=
  if a.vertexCount = 0 then 0.0 else a.largest / a.vertices

/-- The smallest orbit over the largest. -/
def homogeneityIndex : Float :=
  if a.orbits.isEmpty then 0.0 else a.smallest / a.largest

/-- The mean of the orbits' sizes over the largest size. -/
def deviationIndex : Float :=
  if a.orbits.isEmpty then 0.0
  else
    let largest := a.largest
    Metrics.sum (a.sizes.map (· / largest)) / Float.ofNat a.orbits.length

/-- All measures. -/
def metrics : Metrics :=
  { graphEntropy := a.graphEntropy, mowshowitzIndex := a.mowshowitzIndex,
    vertexIndex := a.vertexIndex, homogeneityIndex := a.homogeneityIndex,
    deviationIndex := a.deviationIndex }

end Automorphisms

/-! ## Documents -/

instance : ToJson Metrics where
  toJson m :=
    Json.record [
      ("graph_entropy", toJson m.graphEntropy),
      ("mowshowitz_symmetry_index", toJson m.mowshowitzIndex),
      ("vertex_symmetry_index", toJson m.vertexIndex),
      ("orbit_homogeneity_index", toJson m.homogeneityIndex),
      ("orbit_deviation_index", toJson m.deviationIndex)]

instance : OfJson Metrics where
  ofJson? j := do
    let r ← Record.ofJson? ["graph_entropy", "mowshowitz_symmetry_index",
      "vertex_symmetry_index", "orbit_homogeneity_index", "orbit_deviation_index"] j
    return {
      graphEntropy := ← r.required "graph_entropy"
      mowshowitzIndex := ← r.required "mowshowitz_symmetry_index"
      vertexIndex := ← r.required "vertex_symmetry_index"
      homogeneityIndex := ← r.required "orbit_homogeneity_index"
      deviationIndex := ← r.required "orbit_deviation_index" }

/-!
## Automorphisms in terms of identifiers

What an engine finds out about a renumbered graph, told in the identifiers that
the vertices had before. A generator is told by its cycles.
-/

/-- The automorphisms of a graph whose vertices have identifiers. -/
structure ExternalAutomorphisms where
  groupOrder : UInt64
  /-- The cycles of each generator. -/
  generators : List (List (List Nat))
  orbits : List (List Nat)
  metrics : Metrics

namespace Renumbering

/-- The identifier of a vertex, which must have one. -/
def external (r : Renumbering) (v : Nat) : Except GraphError Nat :=
  match r.external? v with
  | some id => .ok id
  | none => .error (.noExternalId v)

/-- The automorphisms of the renumbered graph in terms of identifiers. -/
def externalAutomorphisms (r : Renumbering) (a : Automorphisms) :
    Except GraphError ExternalAutomorphisms := do
  return {
    groupOrder := a.groupOrder
    generators := ← a.group.generators.mapM fun p => p.cycles.mapM (·.mapM r.external)
    orbits := ← a.orbits.mapM (·.mapM r.external)
    metrics := a.metrics }

end Renumbering

instance : ToJson ExternalAutomorphisms where
  toJson a :=
    Json.record [
      ("group_order", toJson a.groupOrder),
      ("generators", toJson a.generators),
      ("orbits", toJson a.orbits),
      ("metrics", toJson a.metrics)]

end PlanOrbits
