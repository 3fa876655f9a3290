import PlanOrbits.Transcript.Parts

/-!
# Reading transcripts

A transcript is what the automorphism engine prints: generators in cycle
notation, a line with the order of the group, then the orbits. The reader takes
one line at a time.

* **Generators.** A line that starts with a parenthesis opens a generator, a line
  that starts with a blank continues the open one, and any other line is ignored.
  A generator is complete when the next one opens or the group order comes.
* **Orbits.** All lines behind the group order make up the listing of the orbits,
  except those about processor time.

After an error further lines are counted and ignored, so that whoever feeds the
reader may go on to the end of the stream.
-/

namespace PlanOrbits

/-- What a transcript says. -/
structure Transcript where
  /-- Generators as lists of cycles, in the order of the transcript. -/
  generators : List (List (List Nat))
  groupOrder : UInt64
  orbits : List (List Nat)
  deriving DecidableEq, Repr

namespace Transcript

/-- How far a reader has come. What was read last stands first. -/
inductive Stage where
  /-- Before the group order, with the lines of the open generator. -/
  | generators (complete : List (List (List Nat))) (pending : Option (List (List Char)))
  /-- Behind the group order, with the lines about the orbits. -/
  | orbits (complete : List (List (List Nat))) (groupOrder : UInt64) (listing : List (List Char))

/-- The text of a generator. A blank joins a line to the one before, unless a new cycle
begins. -/
def generatorText : (lines : List (List Char)) → List Char
  | [] => []
  | line :: lines =>
      line ++ lines.flatMap fun rest => if rest.head? == some '(' then rest else ' ' :: rest

/-- The text of the orbits. -/
def listingText (lines : List (List Char)) : List Char := lines.flatMap (· ++ [' '])

/-- The generators once the open one is complete. -/
def closePending (complete : List (List (List Nat))) (pending : Option (List (List Char))) :
    Except TranscriptError (List (List (List Nat))) :=
  match pending with
  | none => .ok complete
  | some lines =>
      (parseCycles (String.ofList (generatorText lines.reverse))).map (· :: complete)

/-- The marker of lines about processor time. -/
def timeMarker : List Char := ['c', 'p', 'u']

/-- The stage after one more line. -/
def Stage.feed (line : List Char) : Stage → Except TranscriptError Stage
  | .generators complete pending =>
      if Text.contains groupOrderMarker line then do
        let complete ← closePending complete pending
        let order ← parseGroupOrder (String.ofList line)
        return .orbits complete order []
      else if line.head? == some '(' then do
        let complete ← closePending complete pending
        return .generators complete (some [Text.trim line])
      else if line.head?.any Text.isBlank then
        return .generators complete (pending.map (Text.trim line :: ·))
      else return .generators complete pending
  | .orbits complete order listing =>
      if Text.contains timeMarker line then return .orbits complete order listing
      else return .orbits complete order (Text.trim line :: listing)

/-- A reader of transcripts. -/
structure Reader where
  /-- The number of lines fed so far. -/
  lines : Nat
  stage : Except TranscriptError Stage

namespace Reader

/-- A reader before the first line. -/
def start : Reader := { lines := 0, stage := .ok (.generators [] none) }

/-- The reader after one more line, given without its end. -/
def feed (r : Reader) (line : List Char) : Reader :=
  { lines := r.lines + 1, stage := r.stage.bind (·.feed line) }

/-- What the lines fed so far say. -/
def finish (r : Reader) : Except TranscriptError Transcript := do
  match ← r.stage with
  | .generators .. => .error (.missingGroupOrder r.lines)
  | .orbits generators groupOrder listing =>
      let orbits ← parseOrbits (String.ofList (listingText listing.reverse))
      return { generators := generators.reverse, groupOrder, orbits }

end Reader

/-- What a list of lines says. -/
def ofLines (lines : List (List Char)) : Except TranscriptError Transcript :=
  (lines.foldl Reader.feed Reader.start).finish

/-- What a complete transcript says. -/
def parse (text : String) : Except TranscriptError Transcript :=
  ofLines (Text.lines text.toList)

end Transcript

end PlanOrbits
