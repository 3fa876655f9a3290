import PlanOrbits.Automorphism.Result
import PlanOrbits.Bytes.Chars
import PlanOrbits.Bytes.LittleEndian
import PlanOrbits.Bytes.Sha256
import PlanOrbits.Causal.Occurrence
import PlanOrbits.Causal.Structure
import PlanOrbits.CommandLine.Arguments
import PlanOrbits.CommandLine.Execution
import PlanOrbits.Detection.Report
import PlanOrbits.Diagnostic
import PlanOrbits.Encoding.Basic
import PlanOrbits.Encoding.ColorTables
import PlanOrbits.Encoding.Palette
import PlanOrbits.Engine.Basic
import PlanOrbits.Engine.Config
import PlanOrbits.Error
import PlanOrbits.Files.Basic
import PlanOrbits.Files.Tree
import PlanOrbits.Graph.Adjacency
import PlanOrbits.Graph.Basic
import PlanOrbits.Graph.Codec
import PlanOrbits.Graph.Renumbering
import PlanOrbits.Graph.Tables
import PlanOrbits.Json.Basic
import PlanOrbits.Json.Decode
import PlanOrbits.Json.Float
import PlanOrbits.Json.Parser
import PlanOrbits.Json.Printer
import PlanOrbits.Main
import PlanOrbits.Number.Binary64
import PlanOrbits.Number.Shortest
import PlanOrbits.Order
import PlanOrbits.Permutation.Basic
import PlanOrbits.Permutation.Cycles
import PlanOrbits.Permutation.Marks
import PlanOrbits.Permutation.Scatter
import PlanOrbits.Permutation.Stepwise
import PlanOrbits.Plan.Basic
import PlanOrbits.Plan.Literal
import PlanOrbits.Plan.Operator
import PlanOrbits.Plan.Validation
import PlanOrbits.Proofs.Automorphism.Consistency
import PlanOrbits.Proofs.Automorphism.External
import PlanOrbits.Proofs.Automorphism.Measures
import PlanOrbits.Proofs.Bytes.Readers
import PlanOrbits.Proofs.Checked
import PlanOrbits.Proofs.Detection.Accounting
import PlanOrbits.Proofs.Detection.Closure
import PlanOrbits.Proofs.Encoding.ColorTables
import PlanOrbits.Proofs.Encoding.Completeness
import PlanOrbits.Proofs.Encoding.Encodable
import PlanOrbits.Proofs.Encoding.Grounding
import PlanOrbits.Proofs.Encoding.Growth
import PlanOrbits.Proofs.Encoding.Kinds
import PlanOrbits.Proofs.Encoding.Layout
import PlanOrbits.Proofs.Encoding.Palette
import PlanOrbits.Proofs.Encoding.Parts
import PlanOrbits.Proofs.Encoding.Renaming
import PlanOrbits.Proofs.Encoding.Shape
import PlanOrbits.Proofs.Encoding.Soundness
import PlanOrbits.Proofs.Encoding.StepVariables
import PlanOrbits.Proofs.Encoding.Steps
import PlanOrbits.Proofs.Encoding.Vertices
import PlanOrbits.Proofs.Graph.Adjacency
import PlanOrbits.Proofs.Graph.Automorphism
import PlanOrbits.Proofs.Graph.AutomorphismGroup
import PlanOrbits.Proofs.Graph.Bytes
import PlanOrbits.Proofs.Graph.Cells
import PlanOrbits.Proofs.Graph.Document
import PlanOrbits.Proofs.Graph.Parts
import PlanOrbits.Proofs.Graph.Renumbering
import PlanOrbits.Proofs.Graph.Sparse
import PlanOrbits.Proofs.Graph.Stream
import PlanOrbits.Proofs.Json.RoundTrip
import PlanOrbits.Proofs.Json.Text
import PlanOrbits.Proofs.Number.Nearest
import PlanOrbits.Proofs.Number.Places
import PlanOrbits.Proofs.Number.Reading
import PlanOrbits.Proofs.Number.Rounding
import PlanOrbits.Proofs.Permutation.Cycles
import PlanOrbits.Proofs.Permutation.Group
import PlanOrbits.Proofs.Permutation.Images
import PlanOrbits.Proofs.Permutation.NormalForm
import PlanOrbits.Proofs.Permutation.Order
import PlanOrbits.Proofs.Permutation.Text
import PlanOrbits.Proofs.Permutation.Threading
import PlanOrbits.Proofs.Permutation.Tour
import PlanOrbits.Proofs.Plan.Validation
import PlanOrbits.Proofs.Symmetry.Documents
import PlanOrbits.Proofs.Symmetry.Exchanges
import PlanOrbits.Proofs.Symmetry.Involution
import PlanOrbits.Proofs.Symmetry.LikeSteps
import PlanOrbits.Proofs.Symmetry.Pairing
import PlanOrbits.Proofs.Symmetry.Restriction
import PlanOrbits.Proofs.Symmetry.SchemaSwaps
import PlanOrbits.Proofs.Symmetry.Structures
import PlanOrbits.Proofs.Tables
import PlanOrbits.Proofs.Text.ByteOrder
import PlanOrbits.Proofs.Text.Decimal
import PlanOrbits.Proofs.Text.NormalForm
import PlanOrbits.Proofs.Text.Pieces
import PlanOrbits.Proofs.Text.Spelling
import PlanOrbits.Proofs.Transcript.Commands
import PlanOrbits.Proofs.Transcript.CycleNotation
import PlanOrbits.Proofs.Transcript.Cycles
import PlanOrbits.Proofs.Transcript.GroupOrder
import PlanOrbits.Proofs.Transcript.Noise
import PlanOrbits.Proofs.Transcript.OrbitNotation
import PlanOrbits.Proofs.Transcript.Orbits
import PlanOrbits.Proofs.Transcript.Reader
import PlanOrbits.Proofs.Transcript.RoundTrip
import PlanOrbits.Shell.Alias
import PlanOrbits.Shell.Amount
import PlanOrbits.Shell.Arithmetic
import PlanOrbits.Shell.Builtin
import PlanOrbits.Shell.Bytes.Digests
import PlanOrbits.Shell.Bytes.Radix
import PlanOrbits.Shell.Calculation
import PlanOrbits.Shell.CharSet
import PlanOrbits.Shell.Columns
import PlanOrbits.Shell.Command
import PlanOrbits.Shell.Condition
import PlanOrbits.Shell.Counting
import PlanOrbits.Shell.Difference.Change
import PlanOrbits.Shell.Difference.Report
import PlanOrbits.Shell.Dump
import PlanOrbits.Shell.Edit.Command
import PlanOrbits.Shell.Edit.Editor
import PlanOrbits.Shell.Edit.Reader
import PlanOrbits.Shell.Edit.Sheet
import PlanOrbits.Shell.Entry
import PlanOrbits.Shell.Evaluation
import PlanOrbits.Shell.Expansion
import PlanOrbits.Shell.Factoring
import PlanOrbits.Shell.Filling
import PlanOrbits.Shell.Flags
import PlanOrbits.Shell.Format
import PlanOrbits.Shell.Line
import PlanOrbits.Shell.Machine
import PlanOrbits.Shell.Measure
import PlanOrbits.Shell.Merging
import PlanOrbits.Shell.Number.Front
import PlanOrbits.Shell.Number.Rounded
import PlanOrbits.Shell.Pattern
import PlanOrbits.Shell.Precedence
import PlanOrbits.Shell.Procedure
import PlanOrbits.Shell.Records.Lexeme
import PlanOrbits.Shell.Records.Memory
import PlanOrbits.Shell.Records.Program
import PlanOrbits.Shell.Records.Reader
import PlanOrbits.Shell.Records.Record
import PlanOrbits.Shell.Records.Run
import PlanOrbits.Shell.Records.Value
import PlanOrbits.Shell.Repetition
import PlanOrbits.Shell.Routine
import PlanOrbits.Shell.Scaling
import PlanOrbits.Shell.Script
import PlanOrbits.Shell.Search
import PlanOrbits.Shell.Sections
import PlanOrbits.Shell.Selection
import PlanOrbits.Shell.Sorting
import PlanOrbits.Shell.Splitting
import PlanOrbits.Shell.Storage.Basic
import PlanOrbits.Shell.Storage.Register
import PlanOrbits.Shell.Storage.Rights
import PlanOrbits.Shell.Stream
import PlanOrbits.Shell.Subshell
import PlanOrbits.Shell.Switch
import PlanOrbits.Shell.System
import PlanOrbits.Shell.Time.Calendar
import PlanOrbits.Shell.Time.Layout
import PlanOrbits.Shell.Time.Reading
import PlanOrbits.Shell.Token
import PlanOrbits.Shell.Trial
import PlanOrbits.Shell.Utility.Clock
import PlanOrbits.Shell.Utility.Comparing
import PlanOrbits.Shell.Utility.Digests
import PlanOrbits.Shell.Utility.Editing
import PlanOrbits.Shell.Utility.Files
import PlanOrbits.Shell.Utility.Filters
import PlanOrbits.Shell.Utility.Input
import PlanOrbits.Shell.Utility.Listing
import PlanOrbits.Shell.Utility.Parting
import PlanOrbits.Shell.Utility.Paths
import PlanOrbits.Shell.Utility.Programs
import PlanOrbits.Shell.Utility.Searching
import PlanOrbits.Shell.Utility.Surroundings
import PlanOrbits.Shell.Width
import PlanOrbits.Shell.Wildcard
import PlanOrbits.Symmetry.Basic
import PlanOrbits.Text.Blank
import PlanOrbits.Text.Digits
import PlanOrbits.Text.LowerCase
import PlanOrbits.Transcript.Error
import PlanOrbits.Transcript.Parts
import PlanOrbits.Transcript.Reader
import PlanOrbits.Yaml.Node
import PlanOrbits.Yaml.Scalar
import PlanOrbits.Yaml.Token
