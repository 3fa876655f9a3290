import PlanOrbits.Diagnostic
import PlanOrbits.Graph.Basic
import PlanOrbits.Permutation.Basic
import PlanOrbits.Plan.Validation
import PlanOrbits.Transcript.Error

/-!
# Errors

The causes of all families in one type, for operations that may fail for more
than one kind of reason. Among them are the failures of the automorphism engine,
which is another program and may give no answer at all.
-/

namespace PlanOrbits

/-!
## Errors with documents and files

Which document could not be read, or which file. What exactly is wrong with it is
not told: the readers of this library only say that a document is not of the
expected form.
-/

/-- Why a document or a file could not be read or written. -/
inductive DocumentError where
  /-- A text is no document of a graph. -/
  | notGraph
  /-- A byte string is cut off before the graph ends. -/
  | truncatedGraph
  /-- A text is no report. -/
  | notReport
  /-- A text is no list of symmetries. -/
  | notSymmetries
  /-- A text is no configuration of an engine. -/
  | notConfig
  /-- The file holds no plan. -/
  | notPlan (path : String)
  /-- The document cannot be read from the file. -/
  | unreadable (path : String)
  /-- The document cannot be written to the file. -/
  | unwritable (path : String)
  /-- The configuration cannot be read from the file. -/
  | unreadableConfig (path : String)
  deriving DecidableEq, Repr

/-- How the error is reported. -/
def DocumentError.diagnostic : DocumentError → Diagnostic
  | notGraph => Diagnostic.of .document "deserialize-json" "not a graph" []
  | truncatedGraph => Diagnostic.of .document "deserialize-bytes" "unexpected end" []
  | notReport => Diagnostic.of .document "report-deserialize" "not a report" []
  | notSymmetries => Diagnostic.of .document "symmetries-deserialize" "not a list of symmetries" []
  | notConfig =>
      Diagnostic.of .document "yaml_deserialize" "not a configuration"
        [("target", "engine-config")]
  | notPlan path => Diagnostic.of .document "plan-deserialize" "not a plan" [("path", path)]
  | unreadable path => Diagnostic.of .document "json-read" "cannot be read" [("path", path)]
  | unwritable path => Diagnostic.of .document "json-write" "cannot be written" [("path", path)]
  | unreadableConfig path =>
      Diagnostic.of .document "config-read" "cannot be read" [("path", path)]

/-! ## Failures of the engine, and all errors -/

/-- Why the automorphism engine did not give an answer. -/
inductive EngineError where
  /-- The program cannot be started. -/
  | spawn (program : String)
  /-- The program ended before it had read its input. -/
  | writeInput (program : String)
  /-- A line of the answer, after so many others, is no text. -/
  | readOutput (lines : Nat)
  /-- The program did not end in time. -/
  | timeout (program : String) (milliseconds : Nat)
  deriving DecidableEq, Repr

/-- How a failure of the engine is reported. -/
def EngineError.diagnostic : EngineError → Diagnostic
  | spawn program =>
      Diagnostic.of .processFailure "spawn" "cannot be started" [("program", program)]
  | writeInput program =>
      Diagnostic.of .processFailure "write-stdin" "broken pipe" [("program", program)]
  | readOutput lines =>
      Diagnostic.of .processFailure "read-stdout" "not a text" [("lines", toString lines)]
  | timeout program milliseconds =>
      (Diagnostic.of .processFailure "timeout" "automorphism engine did not finish in time"
        [("program", program), ("timeout_ms", toString milliseconds)]).withHint
          "raise timeout_ms or leave it unset to wait indefinitely"

/-- Why an operation failed. -/
inductive Error where
  | bijection (cause : BijectionError)
  | domain (cause : DomainError)
  | transcript (cause : TranscriptError)
  | engine (cause : EngineError)
  | graph (cause : GraphError)
  | plan (cause : PlanError)
  | document (cause : DocumentError)
  deriving DecidableEq

namespace Error

/-- How the error is reported. -/
def diagnostic : Error → Diagnostic
  | bijection cause => cause.diagnostic
  | domain cause => cause.diagnostic
  | transcript cause => cause.diagnostic
  | engine cause => cause.diagnostic
  | graph cause => cause.diagnostic
  | plan cause => cause.diagnostic
  | document cause => cause.diagnostic

/-- The family of the error. -/
def family (e : Error) : Family := e.diagnostic.family

end Error

/-! ## Operations that fail for one kind of reason

They may be used where any reason is allowed. -/

instance : MonadLift (Except BijectionError) (Except Error) := ⟨(·.mapError .bijection)⟩

instance : MonadLift (Except DomainError) (Except Error) := ⟨(·.mapError .domain)⟩

instance : MonadLift (Except TranscriptError) (Except Error) := ⟨(·.mapError .transcript)⟩

instance : MonadLift (Except EngineError) (Except Error) := ⟨(·.mapError .engine)⟩

instance : MonadLift (Except GraphError) (Except Error) := ⟨(·.mapError .graph)⟩

instance : MonadLift (Except PlanError) (Except Error) := ⟨(·.mapError .plan)⟩

instance : MonadLift (Except DocumentError) (Except Error) := ⟨(·.mapError .document)⟩

/-! ## Results and what is known of them -/

/-- A result, together with the fact that it is the result. Where a structure must carry a proof
about what was computed before, the fact is at hand. -/
def attached {ε α : Type} (x : Except ε α) : Except ε {a // x = .ok a} :=
  match x with
  | .error e => .error e
  | .ok a => .ok ⟨a, rfl⟩

end PlanOrbits
