import PlanOrbits.Text.Blank
import PlanOrbits.Text.Digits

/-!
# Lines

Texts as lists of lines, with their line feeds or without them. An unfinished last
line counts if it is not empty.
-/

namespace PlanOrbits.Shell

/-- What a filter wrote, and whether it succeeded. -/
abbrev Filtered := List Char × Bool

namespace Line

/-- The lines of a text with their line feeds; the last may have none. -/
def withEnds : List Char → List (List Char)
  | [] => []
  | c :: cs =>
      if c == '\n' then ['\n'] :: withEnds cs
      else
        match withEnds cs with
        | [] => [[c]]
        | first :: rest => (c :: first) :: rest

/-- Lines in the order of their bytes. -/
def sorted (lines : List (List Char)) : List (List Char) :=
  lines.mergeSort fun a b => Ord.compare a b != .gt

/-- The lines of a text, where a character ends each of them. -/
def allEndedBy (mark : Char) (cs : List Char) : List (List Char) :=
  let pieces := Text.pieces (· == mark) cs
  if pieces.getLast? == some [] then pieces.dropLast else pieces

/-- The lines of a text. -/
def all (cs : List Char) : List (List Char) := allEndedBy '\n' cs

/-- A line with its line feed. -/
def ended (line : List Char) : List Char := line ++ ['\n']

/-- The text of lines, each with a character behind it. -/
def joinEndedBy (mark : Char) (lines : List (List Char)) : List Char :=
  lines.flatMap fun line => line ++ [mark]

/-- The text of lines, each with a line feed. -/
def join (lines : List (List Char)) : List Char := joinEndedBy '\n' lines

/-- A line with a number. -/
def ofNat (n : Nat) : List Char := ended (Text.decimal n)

/-- A text with blanks in front of it, up to a width. -/
def padLeft (width : Nat) (text : List Char) : List Char :=
  List.replicate (width - text.length) ' ' ++ text

end Line

end PlanOrbits.Shell
