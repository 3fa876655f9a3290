import PlanOrbits.Automorphism.Result
import PlanOrbits.Json.Decode
import PlanOrbits.Json.Printer
import PlanOrbits.Symmetry.Basic

/-!
# Detecting symmetries

The whole way from a plan to its symmetries: encode the plan, ask an engine for
the automorphisms of the graph, and keep the generators that are symmetries,
followed by the exchanges of like steps. A report sums up the run.
-/

namespace PlanOrbits

/-! ## Options -/

/-- The switches of symmetry detection. -/
structure DetectionOptions where
  /-- Are symmetries also derived from consecutive steps of one schema? -/
  includeSchemaSwaps : Bool
  deriving DecidableEq, Repr

namespace DetectionOptions

/-- What holds unless it is said otherwise. -/
def standard : DetectionOptions := { includeSchemaSwaps := true }

instance : ToJson DetectionOptions where
  toJson o := Json.record [("include_schema_swaps", toJson o.includeSchemaSwaps)]

instance : OfJson DetectionOptions where
  ofJson? j := do
    let r ← Record.ofJson? ["include_schema_swaps"] j
    return {
      includeSchemaSwaps := ← r.withDefault "include_schema_swaps" standard.includeSchemaSwaps }

end DetectionOptions

/-! ## Reports -/

/-- A summary of a run. -/
structure Report where
  graphHash : String
  vertexCount : Nat
  edgeCount : Nat
  colorCount : Nat
  groupOrder : UInt64
  generatorCount : Nat
  orbitSizes : List Nat
  metrics : Metrics
  /-- The number of symmetries among the generators. -/
  automorphismSymmetries : Nat
  /-- The number of generators that move heads but are no symmetries. -/
  rejectedGenerators : Nat
  /-- The number of generators that move no heads. -/
  inertGenerators : Nat
  /-- The number of exchanges of like steps. -/
  schemaSwapSymmetries : Nat

/-- What a run found. -/
structure Detection where
  encoding : PlanEncoding
  automorphisms : Automorphisms
  /-- Symmetries among the generators, then exchanges of like steps. The same
  symmetry may occur more than once. -/
  symmetries : List CausalSymmetry
  report : Report

/-- Something that computes the automorphisms of a graph. -/
abbrev Engine := ColoredGraph → Except Error Automorphisms

/-- The summary of what was found. -/
def Report.of (e : PlanEncoding) (a : Automorphisms) (h : Harvest) (swaps : List CausalSymmetry) :
    Report where
  graphHash := e.graph.hash
  vertexCount := e.graph.vertexCount
  edgeCount := e.graph.edgeCount
  colorCount := e.palette.size
  groupOrder := a.groupOrder
  generatorCount := a.group.generators.length
  orbitSizes := a.orbitSizes
  metrics := a.metrics
  automorphismSymmetries := h.symmetries.length
  rejectedGenerators := h.rejected
  inertGenerators := h.inert
  schemaSwapSymmetries := swaps.length

/-- What the automorphisms of an encoded plan say about its symmetries. -/
def PartialPlan.detection (p : PartialPlan) (encoding : PlanEncoding)
    (automorphisms : Automorphisms) (options : DetectionOptions) : Detection :=
  let harvest := encoding.harvest automorphisms
  let swaps := if options.includeSchemaSwaps then p.schemaSwaps else []
  { encoding
    automorphisms
    symmetries := harvest.symmetries ++ swaps
    report := Report.of encoding automorphisms harvest swaps }

/-- Detect the symmetries of a plan with the help of an engine. -/
def PartialPlan.detect (p : PartialPlan) (engine : Engine) (options : DetectionOptions) :
    Except Error Detection := do
  let encoding ← p.encode
  let automorphisms ← engine encoding.graph
  return p.detection encoding automorphisms options

/-- The engine that answers with one transcript, whatever the graph. -/
def Engine.replay (transcript : String) : Engine := fun g => do
  let t ← Transcript.parse transcript
  Automorphisms.ofTranscript t g.vertexCount

/-! ## Documents -/

/-- The names of the fields of a report. -/
def Report.fieldNames : List String :=
  ["graph_hash", "vertex_count", "edge_count", "color_count", "group_order", "generator_count",
    "orbit_sizes", "metrics", "automorphism_symmetries", "rejected_generators",
    "inert_generators", "schema_swap_symmetries"]

instance : ToJson Report where
  toJson r :=
    Json.record <| Report.fieldNames.zip [
      toJson r.graphHash, toJson r.vertexCount, toJson r.edgeCount, toJson r.colorCount,
      toJson r.groupOrder, toJson r.generatorCount, toJson r.orbitSizes, toJson r.metrics,
      toJson r.automorphismSymmetries, toJson r.rejectedGenerators, toJson r.inertGenerators,
      toJson r.schemaSwapSymmetries]

instance : OfJson Report where
  ofJson? j := do
    let r ← Record.ofJson? Report.fieldNames j
    return {
      graphHash := ← r.required "graph_hash"
      vertexCount := ← r.required "vertex_count"
      edgeCount := ← r.required "edge_count"
      colorCount := ← r.required "color_count"
      groupOrder := ← r.required "group_order"
      generatorCount := ← r.required "generator_count"
      orbitSizes := ← r.required "orbit_sizes"
      metrics := ← r.required "metrics"
      automorphismSymmetries := ← r.required "automorphism_symmetries"
      rejectedGenerators := ← r.required "rejected_generators"
      inertGenerators := ← r.required "inert_generators"
      schemaSwapSymmetries := ← r.required "schema_swap_symmetries" }

/-- The report in the text of a document. -/
def Report.ofText (text : String) : Except DocumentError Report :=
  match readJson? Report text with
  | some report => .ok report
  | none => .error .notReport

/-- The symmetries in the text of a document. -/
def CausalSymmetry.listOfText (text : String) : Except DocumentError (List CausalSymmetry) :=
  match readJson? (List CausalSymmetry) text with
  | some symmetries => .ok symmetries
  | none => .error .notSymmetries

end PlanOrbits
