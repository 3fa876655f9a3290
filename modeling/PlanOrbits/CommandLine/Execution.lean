import PlanOrbits.Automorphism.Result
import PlanOrbits.CommandLine.Arguments
import PlanOrbits.Detection.Report
import PlanOrbits.Engine.Basic
import PlanOrbits.Files.Basic
import PlanOrbits.Plan.Validation

/-!
# Executing requests

What the commands of the program do with files and with the engine, which are both parameters
(`Files`, `Programs`). Everything that is read is read before anything is written, and the
first failure ends a command:

* a plan is read and validated before the configuration of the engine is read;
* the engine runs before a directory is made or a file is written.
-/

namespace PlanOrbits

/-- Why a command did not do its work. -/
inductive CommandFailure where
  | error (e : Error)
  /-- A directory cannot be made. -/
  | directory (path : String)
  /-- A file cannot be written. -/
  | file (path : String)

/-- How a failure is reported. -/
def CommandFailure.message : CommandFailure → String
  | error e => e.diagnostic.text
  | directory path => "cannot make the directory " ++ path
  | file path => "cannot write the file " ++ path

/-- A command with access to files. Its result is what it prints. -/
abbrev FileCommand (m : Type → Type) := ExceptT CommandFailure m

namespace FileCommand

variable {m : Type → Type} [Monad m] [Files m]

/-- Go on with what a computation without files returns. -/
def ofExcept {α : Type} (x : Except Error α) : FileCommand m α :=
  ExceptT.mk (pure (x.mapError .error))

/-- Fail with an error. -/
def fail {α : Type} (e : DocumentError) : FileCommand m α := throw (.error (.document e))

/-- The text of a file, or an error. -/
def readText (path : String) (e : DocumentError) : FileCommand m String := do
  match ((← (Files.read? path : m (Option (List UInt8)))).bind Bytes.toText?) with
  | some text => return text
  | none => fail e

/-- Write a text into a file, or fail. -/
def writeText (path text : String) (failure : CommandFailure) : FileCommand m Unit := do
  if !(← (Files.write path (Bytes.ofText text) : m Bool)) then throw failure

/-- Write a document into a file. -/
def writeDocument (path : String) (j : Json) : FileCommand m Unit :=
  writeText path j.pretty (.error (.document (.unwritable path)))

/-- Make a directory, or fail. -/
def makeDirectory (path : String) : FileCommand m Unit := do
  if !(← (Files.createDirectory path : m Bool)) then throw (.directory path)

/-- The text of a document that is printed. -/
def printed (j : Json) : String := j.pretty ++ "\n"

/-- A plan from a file; it must be valid. -/
def loadPlan (path : String) : FileCommand m PartialPlan := do
  match readJson? PartialPlan (← readText path (.unreadable path)) with
  | none => fail (.notPlan path)
  | some plan =>
      ofExcept (plan.validate : Except PlanError Unit)
      return plan

/-- The configuration of the engine, from a file if there is one. -/
def loadConfig (isVerbose : Bool) (path : Option String) : FileCommand m EngineConfig := do
  let config ←
    match path with
    | none => pure EngineConfig.standard
    | some path => do
        let text ← readText path (.unreadableConfig path)
        ofExcept (EngineConfig.ofText text : Except DocumentError EngineConfig)
  return { config with verbose := config.verbose || isVerbose }

/-- Write a document if there is a path for it, and print it otherwise. -/
def deliver (out : Option String) (j : Json) : FileCommand m String := do
  match out with
  | none => return printed j
  | some path =>
      writeDocument path j
      return ""

/-- Find the automorphisms of a graph with sparse identifiers. -/
def automorphisms [Programs m] (isVerbose : Bool) (graph : String) (config out : Option String) :
    FileCommand m String := do
  let text ← readText graph (.unreadable graph)
  let (g, ids) ← ofExcept (SparseGraph.ofText text)
  let config ← loadConfig isVerbose config
  let found ← ofExcept (← (config.compute g : m (Except Error Automorphisms)))
  let external ← ofExcept (ids.externalAutomorphisms found : Except GraphError _)
  deliver out (toJson external)

/-- Find the symmetries of a plan. -/
def detect [Programs m] (isVerbose : Bool) (plan : String) (config out : Option String)
    (options : DetectionOptions) : FileCommand m String := do
  let p ← loadPlan plan
  let config ← loadConfig isVerbose config
  let encoding ← ofExcept p.encode
  let found ← ofExcept (← (config.compute encoding.graph : m (Except Error Automorphisms)))
  let d := p.detection encoding found options
  match out with
  | none => return printed (toJson d.report)
  | some directory =>
      makeDirectory directory
      writeDocument (Path.join directory "report.json") (toJson d.report)
      writeDocument (Path.join directory "symmetries.json") (toJson d.symmetries)
      return ""

/-- Write the graph of a plan, as a document or as commands to the engine. -/
def encode (plan out : String) (asProtocol : Bool) : FileCommand m String := do
  let p ← loadPlan plan
  let encoding ← ofExcept p.encode
  let text :=
    if asProtocol then encoding.graph.commands else (toJson encoding.graph).pretty
  if let some parent := Path.parent? out then
    if parent ≠ "" then makeDirectory parent
  writeText out text (.file out)
  return ""

/-- Execute a request. -/
def ofRequest [Programs m] (isVerbose : Bool) : Request → FileCommand m String
  | .help none => return generalHelp
  | .help (some command) => return command.help
  | .version => return versionText
  | .automorphisms graph config out => automorphisms isVerbose graph config out
  | .detect plan config out includeSchemaSwaps =>
      detect isVerbose plan config out { includeSchemaSwaps }
  | .encode plan out asProtocol => encode plan out asProtocol

end FileCommand

/-! ## The whole program -/

/-- How the program ended. -/
inductive ProgramEnd where
  | success
  /-- The arguments are not well formed. -/
  | usage (e : UsageError)
  | failure (f : CommandFailure)

/-- The exit status. -/
def ProgramEnd.status : ProgramEnd → Nat
  | success => 0
  | usage _ => 2
  | failure _ => 1

/-- The message, if anything went wrong. -/
def ProgramEnd.message? : ProgramEnd → Option String
  | success => none
  | usage e => some e.message
  | failure f => some f.message

/-- Run the program. Returns what it prints and how it ends. -/
def runProgram {m : Type → Type} [Monad m] [Files m] [Programs m] (args : List String) :
    m (String × ProgramEnd) := do
  match Invocation.ofArguments .empty args with
  | .error e => return ("", .usage e)
  | .ok i =>
      match ← (FileCommand.ofRequest i.isVerbose i.request : FileCommand m String).run with
      | .ok output => return (output, .success)
      | .error f => return ("", .failure f)

end PlanOrbits
