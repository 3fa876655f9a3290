import PlanOrbits.Text.Blank

/-!
# Streams

Texts that are written at one end and read at the other. What was written first is
read first, and nothing is lost on the way.

A text holds bytes, each as the character with that code.
-/

namespace PlanOrbits.Shell

/-- What a stream is. -/
inductive StreamKind where
  /-- A pipe between two processes, which holds only so much. -/
  | pipe
  /-- A pipe from which somebody takes all that is written, as it comes. -/
  | drain
  /-- The content of a file. What was read too much can be given back. -/
  | file
  deriving DecidableEq, Repr

/-- A text that is written at one end and read at the other. -/
structure Stream where
  kind : StreamKind
  /-- What is read next. -/
  front : List Char
  /-- What was written behind that, the last piece first. -/
  back : List (List Char)
  /-- How many characters are left to be read. -/
  size : Nat

namespace Stream

/-- How many bytes a pipe holds that nobody has read. -/
def capacity : Nat := 65536

/-- So many bytes are written into a pipe at once, or not at all, and so many have to fit in
when there are more. -/
def wholeLimit : Nat := 4096

/-- A stream with a text in it. -/
def ofText (kind : StreamKind) (text : List Char) : Stream :=
  { kind, front := text, back := [], size := text.length }

variable (s : Stream)

/-- All that is left to be read. -/
def text : List Char := s.front ++ s.back.reverse.flatten

/-- The stream with a text behind all that is in it. -/
def add (text : List Char) : Stream :=
  { s with back := text :: s.back, size := s.size + text.length }

/-- How many of so many characters can be written now: all of them, or else as many as
there is room for. Few are not parted, and many wait for enough room. -/
def accepted (size : Nat) : Nat :=
  if s.kind != .pipe || s.size + size ≤ capacity then size
  else if size ≤ wholeLimit || capacity < s.size + wholeLimit then 0
  else capacity - s.size

/-- The stream without its text. -/
def emptied : Stream := { s with front := [], back := [], size := 0 }

/-- Take the text, but no more than so many characters of it. -/
def takeBlock (size : Nat) : List Char × Stream :=
  if s.size ≤ size then (s.text, s.emptied)
  else (s.text.take size, { s with front := s.text.drop size, back := [], size := s.size - size })

/-- Take the text up to a line feed, which is taken, too, but not returned, and tell
whether there was one. Otherwise all of the text is taken. -/
def takeLine : List Char × Bool × Stream :=
  match Text.cutAt? '\n' s.front with
  | some (line, rest) =>
      (line, true, { s with front := rest, size := s.size - (line.length + 1) })
  | none =>
      match Text.cutAt? '\n' s.text with
      | some (line, rest) =>
          (line, true, { s with front := rest, back := [], size := s.size - (line.length + 1) })
      | none => (s.text, false, s.emptied)

/-- The stream with a text in front of what is left. -/
def giveBack (text : List Char) : Stream :=
  { s with front := text ++ s.front, size := s.size + text.length }

end Stream

end PlanOrbits.Shell
