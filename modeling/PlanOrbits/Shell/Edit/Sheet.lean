import PlanOrbits.Shell.Edit.Reader
import PlanOrbits.Text.Blank

/-!
# Lines and sheets

What is edited comes in rows, one for each line, and is held in a space, to which more
may be added at its end. What is written goes to sheets, one for each place.
-/

namespace PlanOrbits.Shell.Edit

/-- A line that is to be read. -/
structure Row where
  text : List Char
  /-- Is there a line feed behind it? -/
  isEnded : Bool
  /-- The file from which it comes. -/
  file : List Char

/-- The complete lines of a text, and the beginning of one that is not complete. -/
def Row.ofText (mark : Char) (file text : List Char) : List Row × List Char :=
  let pieces := Text.pieces (· == mark) text
  (pieces.dropLast.map fun text => { text, isEnded := true, file }, pieces.getLast?.getD [])

/-- The last line of a file, if it has no line feed. -/
def Row.ofEnd (file text : List Char) : List Row :=
  if text.isEmpty then [] else [{ text, isEnded := false, file }]

/-- The lines of a file. -/
def Row.ofFile (mark : Char) (file text : List Char) : List Row :=
  let (rows, last) := Row.ofText mark file text
  rows ++ Row.ofEnd file last

/-- The text of a line with what was behind it. -/
def Row.whole (mark : Char) (row : Row) : List Char :=
  if row.isEnded then row.text ++ [mark] else row.text

/-! ## Spaces -/

/-- A text to whose end more can be added. -/
structure Space where
  front : List Char
  /-- What was added, the last character first. -/
  back : List Char

namespace Space

/-- The space that holds a text. -/
def ofText (text : List Char) : Space := { front := text, back := [] }

variable (s : Space)

/-- The text that a space holds. -/
def text : List Char := if s.back.isEmpty then s.front else s.front ++ s.back.reverse

/-- The space with a line behind all that is in it. -/
def add (mark : Char) (line : List Char) : Space :=
  { s with back := line.reverseAux (mark :: s.back) }

end Space

/-! ## What is written -/

/-- What was written to one place. -/
structure Sheet where
  /-- The pieces, the last one first. -/
  pieces : List (List Char)
  /-- Does a line feed have to come before anything else? -/
  owesBreak : Bool

namespace Sheet

/-- Nothing was written. -/
def empty : Sheet := { pieces := [], owesBreak := false }

/-- Write a text as it is. -/
def write (mark : Char) (text : List Char) (s : Sheet) : Sheet :=
  { pieces := text :: (if s.owesBreak then [mark] :: s.pieces else s.pieces), owesBreak := false }

/-- Write a line; one that is open has no line feed behind it, until something else is
written. -/
def line (mark : Char) (isOpen : Bool) (text : List Char) (s : Sheet) : Sheet :=
  { s.write mark (if isOpen then text else text ++ [mark]) with owesBreak := isOpen }

/-- All that was written. -/
def text (s : Sheet) : List Char := s.pieces.reverse.flatten

/-- So much of a sheet is held back. -/
def heldSize : Nat := 4096

/-- How many characters of a sheet are not held back any more. -/
def countReleased (isDirect : Bool) (s : Sheet) : Nat :=
  let size := s.text.length
  if isDirect then size else size / heldSize * heldSize

end Sheet

end PlanOrbits.Shell.Edit
