import PlanOrbits.Bytes.LittleEndian
import PlanOrbits.Bytes.Sha256
import PlanOrbits.Error
import PlanOrbits.Graph.Basic

/-!
# Documents, hashes and commands of graphs

A graph is stored as its colours and its edges. Two forms hold the same data: a
JSON record, and bytes with an eight-byte count before each list. Reading either
form adds the edges one after the other, in any order and orientation; edges that
do not fit the graph are errors about the graph, not about the document.

A graph is hashed by way of a byte stream that holds the vertex count, the colour
of each vertex, the edge count and the edges in order. The stream is set apart
from the hash function: it alone decides which graphs are told apart.
-/

namespace PlanOrbits.ColoredGraph

/-! ## Hashes -/

/-- The bytes that begin every stream: `coloured-graph:v1`. -/
def streamTag : List UInt8 := "coloured-graph:v1".toList.map fun c => c.toNat.toUInt8

/-- A colour as four bytes. -/
def colorBytes (c : Color) : List UInt8 := Bytes.word 4 c.toNat

/-- An edge as eight bytes for each end. -/
def edgeBytes (e : Nat × Nat) : List UInt8 := Bytes.word 8 e.1 ++ Bytes.word 8 e.2

/-- The byte stream of a graph. -/
def stream (g : ColoredGraph) : List UInt8 :=
  streamTag ++ Bytes.word 8 g.vertexCount ++ g.colors.toList.flatMap colorBytes ++
    Bytes.word 8 g.edgeList.length ++ g.edgeList.flatMap edgeBytes

/-- The structural hash in hexadecimal. -/
def hash (g : ColoredGraph) : String := Bytes.hex (Sha256.digest g.stream)

/-- The graph with the given colours and edges. -/
def ofParts (colors : List Color) (edges : List (Nat × Nat)) : Except GraphError ColoredGraph :=
  (ofColors colors.toArray).addEdges edges

/-! ## JSON -/

instance : ToJson ColoredGraph where
  toJson g := Json.record [("colors", toJson g.colors.toList), ("edges", toJson g.edgeList)]

/-- The colours and edges in a document. -/
def partsOfJson? (j : Json) : Option (List Color × List (Nat × Nat)) := do
  let r ← Record.ofJson? ["colors", "edges"] j
  return (← r.required "colors", ← r.required "edges")

/-- The graph in a document. -/
def ofJson (j : Json) : Except Error ColoredGraph := do
  match partsOfJson? j with
  | none => throw (.document .notGraph)
  | some (colors, edges) => ofParts colors edges

/-- The graph in the text of a document. -/
def ofText (text : String) : Except Error ColoredGraph :=
  match Json.parse? text with
  | none => throw (.document .notGraph)
  | some j => ofJson j

/-! ## Bytes -/

/-- The bytes of a graph. -/
def toBytes (g : ColoredGraph) : List UInt8 :=
  Bytes.writeList colorBytes g.colors.toList ++ Bytes.writeList edgeBytes g.edgeList

/-- The colours and edges at the front of a byte string. -/
def readParts : Bytes.Reader (List Nat × List (Nat × Nat)) :=
  Bytes.readPair (Bytes.readList (Bytes.readWord 4))
    (Bytes.readList (Bytes.readPair (Bytes.readWord 8) (Bytes.readWord 8)))

/-- The graph at the front of a byte string; what follows it is ignored. -/
def ofBytes (bytes : List UInt8) : Except Error ColoredGraph := do
  match readParts bytes with
  | none => throw (.document .truncatedGraph)
  | some ((colors, edges), _) => ofParts (colors.map Nat.toUInt32) edges

/-!
## Commands to the engine

The text that makes the automorphism engine read a graph with its colours, print
generators and orbits, and quit: the vertex count, one line of neighbours for each
vertex, the cells of the colours between brackets, and three commands.
-/

/-- Numbers, each followed by a blank. -/
def listing (vs : List Nat) : List Char := vs.flatMap fun v => Text.decimal v ++ [' ']

/-- The line of the neighbours of a vertex. -/
def neighbourLine (neighbours : List Nat) : List Char := listing neighbours ++ [';']

/-- The line of the vertex count. -/
def headLine (g : ColoredGraph) : List Char :=
  'n' :: '=' :: (Text.decimal g.vertexCount ++ [' ', 'g'])

/-- The line of the colour cells. -/
def cellLine (g : ColoredGraph) : List Char :=
  'f' :: '=' :: '[' :: (List.intercalate ['|'] (g.cells.map listing) ++ [']'])

/-- The lines of the commands. -/
def commandLines (g : ColoredGraph) : List (List Char) :=
  g.headLine :: g.neighbourTable.toList.map neighbourLine ++
    [g.cellLine, ['x'], ['o'], ['q']]

/-- The text of the commands; every line is ended by a line feed. -/
def commands (g : ColoredGraph) : String :=
  String.ofList (g.commandLines.flatMap (· ++ ['\n']))

end PlanOrbits.ColoredGraph
