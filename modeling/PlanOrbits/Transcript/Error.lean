import PlanOrbits.Diagnostic

/-!
# Errors in transcripts

Why the answer of the automorphism engine is refused: because its text is not in
the expected form, or because what it says of a graph cannot be.
-/

namespace PlanOrbits

/-- Why a transcript, or what it says, is refused. -/
inductive TranscriptError where
  /-- A transcript of so many lines names no group order. -/
  | missingGroupOrder (lines : Nat)
  /-- A line was expected to name the group order. -/
  | noGroupOrder (line : String)
  /-- The group order is no number. -/
  | badGroupOrder (order line : String)
  /-- A point stands outside of any cycle. -/
  | strayPoint (text : String)
  /-- A point does not fit a 64-bit word. -/
  | pointOverflow (text : String)
  /-- A cycle is opened inside of a cycle. -/
  | nestedCycle (text : String)
  /-- A cycle is closed that was not opened. -/
  | unopenedCycle (text : String)
  /-- A cycle is still open at the end. -/
  | unclosedCycle (text : String)
  /-- A character that is no part of cycle notation. -/
  | unexpectedCharacter (char : Char) (text : String)
  /-- A range of vertices runs downwards. -/
  | badRange (range text : String)
  /-- An entry of an orbit is no vertex. -/
  | badOrbitEntry (entry text : String)
  /-- The generators act on another number of points than there are vertices. -/
  | generatorDomain (vertexCount domainSize : Nat)
  /-- An orbit has no vertices. -/
  | emptyOrbit (index : Nat)
  /-- An orbit has a vertex that the graph does not have. -/
  | unknownVertex (vertex vertexCount : Nat)
  /-- A vertex occurs twice in the orbits. -/
  | repeatedVertex (vertex : Nat)
  /-- A vertex occurs in no orbit. -/
  | uncoveredVertex (vertex : Nat)
  deriving DecidableEq, Repr

/-- How a refused transcript is reported. -/
def TranscriptError.diagnostic : TranscriptError → Diagnostic
  | missingGroupOrder lines =>
      (Diagnostic.of .protocolViolation "missing-grpsize" "engine output has no grpsize= line"
        [("lines", toString lines)]).withHint
          "check that the engine binary is dreadnaut and accepts the x/o commands"
  | noGroupOrder line =>
      Diagnostic.of .protocolViolation "missing-grpsize" "line has no grpsize= field"
        [("line", line)]
  | badGroupOrder order line =>
      Diagnostic.of .protocolViolation "bad-grpsize" "group order is not a number"
        [("grpsize", order), ("line", line)]
  | strayPoint text =>
      Diagnostic.of .protocolViolation "stray-point" "point outside of a cycle" [("text", text)]
  | pointOverflow text =>
      Diagnostic.of .protocolViolation "point-overflow" "point does not fit usize"
        [("text", text)]
  | nestedCycle text =>
      Diagnostic.of .protocolViolation "nested-cycle" "cycle opened twice" [("text", text)]
  | unopenedCycle text =>
      Diagnostic.of .protocolViolation "unbalanced-cycle" "cycle closed twice" [("text", text)]
  | unclosedCycle text =>
      Diagnostic.of .protocolViolation "unbalanced-cycle" "cycle is never closed"
        [("text", text)]
  | unexpectedCharacter char text =>
      Diagnostic.of .protocolViolation "unexpected-character" "cannot parse cycle"
        [("char", char.toString), ("text", text)]
  | badRange range text =>
      Diagnostic.of .protocolViolation "bad-range" "orbit range is descending"
        [("range", range), ("text", text)]
  | badOrbitEntry entry text =>
      Diagnostic.of .protocolViolation "bad-orbit-token" "orbit entry is not a vertex id"
        [("token", entry), ("text", text)]
  | generatorDomain vertexCount domainSize =>
      Diagnostic.of .protocolViolation "generator-domain" "generators act on the wrong domain"
        [("vertex_count", toString vertexCount), ("domain_size", toString domainSize)]
  | emptyOrbit index =>
      Diagnostic.of .protocolViolation "empty-orbit" "orbits must be non-empty"
        [("orbit", toString index)]
  | unknownVertex vertex vertexCount =>
      Diagnostic.of .protocolViolation "orbit-range" "orbit names an unknown vertex"
        [("vertex", toString vertex), ("vertex_count", toString vertexCount)]
  | repeatedVertex vertex =>
      Diagnostic.of .protocolViolation "orbit-overlap" "vertex appears in two orbits"
        [("vertex", toString vertex)]
  | uncoveredVertex vertex =>
      Diagnostic.of .protocolViolation "orbit-cover" "orbits do not cover every vertex"
        [("vertex", toString vertex)]

/-- Whatever is wrong with a transcript, the engine has broken the protocol. -/
theorem TranscriptError.family_diagnostic (cause : TranscriptError) :
    cause.diagnostic.family = .protocolViolation := by
  cases cause <;> rfl

end PlanOrbits
