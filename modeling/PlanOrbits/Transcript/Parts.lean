import PlanOrbits.Number.Binary64
import PlanOrbits.Text.Blank
import PlanOrbits.Text.Digits
import PlanOrbits.Transcript.Error

/-!
# The parts of a transcript

The three notations that a transcript is made of.

* **Cycles** such as `(1 2)(3 4 5)`: points are digits, and blanks and commas separate them
  and may also stand between cycles. A point must fit a 64-bit word; the check is made after
  every digit.
* **Group orders.** A line such as `1 orbit; grpsize=24; 3 gens` names the order of the group
  behind the marker `grpsize=`, up to a semicolon. Large orders are written in scientific
  notation, as `1.5e12` or as `3.2*10^45`; they are computed in binary floating point and cut
  off to a 64-bit word.
* **Orbits** are listed one after the other, each ended by a semicolon: vertices such as `7`,
  and ranges such as `2:5` for the vertices from 2 to 5. What follows an opening parenthesis
  within an orbit is a note, usually its size, and is skipped.
-/

namespace PlanOrbits.Transcript

/-! ## Cycles -/

/-- Characters that separate points and cycles. -/
def isSeparator (c : Char) : Bool := Text.isBlank c || c == ','

mutual

/-- The cycles from a place outside of any cycle. -/
def cyclesOutside (text : String) : List Char → Except TranscriptError (List (List Nat))
  | [] => .ok []
  | c :: cs =>
      if Text.isDigit c then .error (.strayPoint text)
      else if c = '(' then cyclesInside text [] none cs
      else if c = ')' then .error (.unopenedCycle text)
      else if isSeparator c then cyclesOutside text cs
      else .error (.unexpectedCharacter c text)

/-- The cycles from a place inside of a cycle, behind the points `points`, the last of
which stands first, and possibly in the middle of a number. -/
def cyclesInside (text : String) (points : List Nat) (number : Option Nat) :
    List Char → Except TranscriptError (List (List Nat))
  | [] => .error (.unclosedCycle text)
  | c :: cs =>
      match Text.digit? c with
      | some d =>
          let value := 10 * number.getD 0 + d
          if Text.wordLimit ≤ value then .error (.pointOverflow text)
          else cyclesInside text points (some value) cs
      | none =>
          let points := number.toList ++ points
          if c = '(' then .error (.nestedCycle text)
          else if c = ')' then (cyclesOutside text cs).map (points.reverse :: ·)
          else if isSeparator c then cyclesInside text points none cs
          else .error (.unexpectedCharacter c text)

end

/-- The cycles that a text lists. -/
def parseCycles (text : String) : Except TranscriptError (List (List Nat)) :=
  cyclesOutside text text.toList

/-! ## Group orders -/

/-- The marker before the group order. -/
def groupOrderMarker : List Char := ['g', 'r', 'p', 's', 'i', 'z', 'e', '=']

/-- The sign of multiplication by a power of ten. -/
def timesTenTo : List Char := ['*', '1', '0', '^']

/-- A number, or a number times a power of ten. -/
def magnitude? (cs : List Char) : Option Binary64 :=
  match Text.cutAround? timesTenTo cs with
  | none => Binary64.read? cs
  | some (mantissa, exponent) => do
      let mantissa ← Binary64.read? (Text.trim mantissa)
      let exponent ← Text.exponentOf? (Text.trim exponent)
      return mantissa.mul (Binary64.tenPow exponent)

/-- The group order that a line names. -/
def parseGroupOrder (line : String) : Except TranscriptError UInt64 :=
  match Text.after? groupOrderMarker line.toList with
  | none => .error (.noGroupOrder line)
  | some rest =>
      let order := Text.trim (rest.takeWhile (· != ';'))
      match magnitude? order with
      | none => .error (.badGroupOrder (String.ofList order) line)
      | some value => .ok value.toWord

/-! ## Orbits -/

/-- A vertex, or the error that it is none. -/
def parseVertex (text : String) (entry : List Char) : Except TranscriptError Nat :=
  match Text.wordOf? entry with
  | some v => .ok v
  | none => .error (.badOrbitEntry (String.ofList entry) text)

/-- The vertices of one entry: one vertex, or a range with both ends. A list has room for every
range here. A program that keeps orbits in an array of 64-bit words must give up at a range of
`2 ^ 60` vertices or more, such as `0:1152921504606846975`, which no address space can hold; that
memory suffices is assumed of it, as it is of every other list of this library. -/
def parseEntry (text : String) (entry : List Char) : Except TranscriptError (List Nat) :=
  match Text.cutAt? ':' entry with
  | none => (parseVertex text entry).map ([·])
  | some (low, high) => do
      let low ← parseVertex text low
      let high ← parseVertex text high
      if high < low then .error (.badRange (String.ofList entry) text)
      else .ok (List.range' low (high - low + 1))

/-- The part of an orbit before its note. -/
def beforeNote (group : List Char) : List Char := group.takeWhile (· != '(')

/-- The vertices of one orbit. -/
def parseOrbit (text : String) (group : List Char) : Except TranscriptError (List Nat) :=
  ((Text.words (beforeNote group)).mapM (parseEntry text)).map List.flatten

/-- The orbits that a text lists, without empty ones. -/
def parseOrbits (text : String) : Except TranscriptError (List (List Nat)) :=
  ((Text.pieces (· == ';') text.toList).mapM (parseOrbit text)).map
    (List.filter (!·.isEmpty))

end PlanOrbits.Transcript
