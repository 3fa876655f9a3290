import PlanOrbits.Automorphism.Result
import PlanOrbits.Bytes.Chars
import PlanOrbits.Engine.Config
import PlanOrbits.Graph.Codec

/-!
# Running the engine

The automorphism engine is a program that reads commands about a graph and writes
a transcript. Which programs there are and what they do is not known here: `Programs` is a
parameter of all that runs an engine, as `Files` is of all that reads or writes files, and
nothing is assumed of it. What can go wrong with a program is reported before what is wrong
with its transcript, in this order:

* it cannot be **started**;
* it does not end in **time**;
* it ends before it has **read** its input, and what is left does not fit into the
  pipe between the two programs;
* a line that it **wrote** is no text.

A graph without vertices needs no engine.
-/

namespace PlanOrbits

/-- What a program did from its start to its end. -/
structure ProgramOutcome where
  /-- The bytes that it wrote, as the characters with these numbers, at least up to the end of
  the first line that is no text. -/
  output : List Char
  /-- Was it ended because its time was over? -/
  isLate : Bool
  /-- Could its whole input be written? -/
  isFed : Bool

/-- Computations that can run other programs. -/
class Programs (m : Type → Type) where
  /-- Start a program with arguments and the bytes of an input, and wait for its end; it is
  ended after so many milliseconds. There is no outcome if it cannot be started. -/
  start? : (program : String) → (args : List String) → (input : List UInt8) →
    (limit : Option Nat) → m (Option ProgramOutcome)

/-- The texts of lines, or the number of lines before the first that is no text. -/
def textLines (count : Nat) : List (List Char) → Except EngineError (List (List Char))
  | [] => .ok []
  | line :: lines =>
      match Bytes.textOfChars? line with
      | none => .error (.readOutput count)
      | some text => (textLines (count + 1) lines).map (text.toList :: ·)

/-- The transcript in the output of a program. -/
def Transcript.ofOutput (output : List Char) : Except Error Transcript := do
  let lines ← textLines 0 (Text.lines output)
  Transcript.ofLines lines

namespace EngineConfig

variable (c : EngineConfig)

/-- The transcript of a program, if it ran as it should. -/
def transcript (outcome : Option ProgramOutcome) : Except Error Transcript := do
  match outcome with
  | none => throw (.engine (.spawn c.program))
  | some o =>
      if o.isLate then throw (.engine (.timeout c.program (c.timeoutMilliseconds.getD 0)))
      if !o.isFed then throw (.engine (.writeInput c.program))
      Transcript.ofOutput o.output

/-- The automorphisms of a graph, as the configured engine finds them. -/
def compute {m : Type → Type} [Monad m] [Programs m] (g : ColoredGraph) :
    m (Except Error Automorphisms) := do
  if g.isEmpty then return .ok (Automorphisms.trivial 0)
  let outcome ← Programs.start? c.program c.args (Bytes.ofText g.commands) c.timeoutMilliseconds
  return do Automorphisms.ofTranscript (← c.transcript outcome) g.vertexCount

end EngineConfig

end PlanOrbits
