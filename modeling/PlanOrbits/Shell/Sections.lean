import PlanOrbits.Shell.Flags
import PlanOrbits.Shell.Format
import PlanOrbits.Shell.Line
import PlanOrbits.Shell.Pattern

/-!
# Sections of texts

A text is cut in front of lines that are given by their numbers, or in which a pattern
occurs. What stands between two borders is a section; a section may also be skipped.
The lines are taken one after the other, so a border can only be behind those before it.
-/

namespace PlanOrbits.Shell.Sections

/-- Where a section ends. -/
inductive Border where
  /-- In front of the line with a number. -/
  | line (n : Nat)
  /-- In front of the next line in which a pattern occurs, or so many lines behind that;
  the section may be skipped. -/
  | occurs (p : Pattern) (offset : Int) (isSkipped : Bool)
  deriving Repr

/-- A border, and how often it is repeated; always, without a number. -/
structure Step where
  border : Border
  repetitions : Option Nat
  deriving Repr

/-! ## Reading -/

/-- An integer with a sign or without one. -/
def readInt? : List Char → Option Int
  | '-' :: cs => (Text.digits? cs).map fun ds => -(Text.number ds : Int)
  | '+' :: cs => (Text.digits? cs).map fun ds => (Text.number ds : Int)
  | cs => (Text.digits? cs).map fun ds => (Text.number ds : Int)

/-- A text up to the last of some characters, and what is behind it. -/
def cutAtLast? (c : Char) (cs : List Char) : Option (List Char × List Char) :=
  (Text.cutAt? c cs.reverse).map fun (behind, front) => (front.reverse, behind.reverse)

/-- The border that an argument describes. -/
def Border.ofChars? (cs : List Char) : Option Border :=
  match cs with
  | delimiter :: rest =>
      if delimiter == '/' || delimiter == '%' then do
        let (pattern, behind) ← cutAtLast? delimiter rest
        let p ← Pattern.ofChars? .basic pattern
        let offset ← if behind.isEmpty then some 0 else readInt? behind
        return .occurs p offset (delimiter == '%')
      else ((Text.digits? cs).map Text.number).bind fun n => if n = 0 then none else some (.line n)
  | [] => none

/-- How often the border before is repeated, if an argument tells that. -/
def readRepetitions? : List Char → Option (Option (Option Nat))
  | '\x7b' :: cs =>
      if cs == ['*', '\x7d'] then some (some none)
      else if cs.getLast? == some '\x7d' then
        (Text.digits? cs.dropLast).map fun ds => some (some (Text.number ds))
      else none
  | _ => some none

/-- The steps that arguments describe. -/
def readSteps? : List (List Char) → Option (List Step)
  | [] => some []
  | [arg] => do return [{ border := ← Border.ofChars? arg, repetitions := some 0 }]
  | arg :: next :: rest => do
      let border ← Border.ofChars? arg
      match ← readRepetitions? next with
      | some repetitions => return { border, repetitions } :: (← readSteps? rest)
      | none => return { border, repetitions := some 0 } :: (← readSteps? (next :: rest))

/-- Do numbers of lines never become smaller? -/
def isOrdered (steps : List Step) : Bool :=
  let numbers := steps.filterMap fun s =>
    match s.border with
    | .line n => some n
    | .occurs .. => none
  (numbers.zip (numbers.drop 1)).all fun (a, b) => a ≤ b

/-! ## Cutting -/

/-- A text that is being cut. -/
structure Cutter where
  /-- The lines that are in no section yet, with their line feeds. -/
  rest : List (List Char)
  /-- The number of the first of them. -/
  first : Nat
  /-- The number of the line that was looked at last. -/
  current : Nat
  /-- The sections, the last one first. -/
  sections : List (List Char)

/-- What a step leads to: the cutting goes on, or it is over, for good or because of a
fault. -/
abbrev Cutting := Except (Bool × List (List Char)) Cutter

namespace Cutter

/-- The state before the first line. -/
def start (text : List Char) : Cutter :=
  { rest := Line.withEnds text, first := 1, current := 0, sections := [] }

variable (c : Cutter)

/-- Take so many lines out of the rest, as a section unless it is skipped. -/
def take (count : Nat) (isSkipped : Bool) : Cutter :=
  let taken := c.rest.take count
  { rest := c.rest.drop count, first := c.first + taken.length
    current := max c.current (c.first + taken.length - 1)
    sections := if isSkipped then c.sections else taken.flatten :: c.sections }

/-- Drop a line, if there is one. -/
def dropLine : Cutter := c.take 1 true

/-- The end of a cutting, where all lines that are left are a section of their own. -/
def ended (isGood isSkipped : Bool) : Cutting :=
  .error (isGood, (c.take c.rest.length isSkipped).sections)

/-- Cut in front of the line with a number. The line itself may be dropped. -/
def cutAtLine (isDropped : Bool) (n : Nat) : Cutting :=
  if c.rest.isEmpty then .error (false, if isDropped then [] :: c.sections else c.sections)
  else if c.rest.length < n - c.first then c.ended false false
  else
    let after := c.take (n - c.first) false
    if isDropped then .ok after.dropLine
    else if after.rest.isEmpty then .error (false, after.sections)
    else .ok after

/-- The number of the next line in which a pattern occurs. -/
def find? (p : Pattern) : Option Nat :=
  let lines := c.rest.drop (c.current + 1 - c.first)
  let text := fun (line : List Char) =>
    if line.getLast? == some '\n' then line.dropLast else line
  (lines.findIdx? fun line => p.occursIn (text line)).map fun i => max c.first (c.current + 1) + i

/-- Cut at the next line in which a pattern occurs. -/
def cutAtPattern (isDropped isForever : Bool) (p : Pattern) (offset : Int) (isSkipped : Bool) :
    Cutting :=
  match c.find? p with
  | none => c.ended isForever isSkipped
  | some found =>
      let place : Int := found + offset
      if place < c.first then .error (false, if isSkipped then c.sections else [] :: c.sections)
      else if (c.rest.length : Int) < place - c.first then c.ended false isSkipped
      else
        let after := c.take (place - c.first).toNat isSkipped
        let after :=
          { after with current := if 0 < offset then place.toNat else max found after.current }
        .ok (if isDropped then after.dropLine else after)

/-- Cut at a border for the n-th time, counted from zero. -/
def cutAt (isDropped isForever : Bool) (n : Nat) : Border → Cutting
  | .line number => c.cutAtLine isDropped (number * (n + 1))
  | .occurs p offset isSkipped => c.cutAtPattern isDropped isForever p offset isSkipped

/-- Run a step from its n-th time on. -/
def run (isDropped : Bool) (s : Step) : Nat → (n : Nat) → Cutter → Cutting
  | 0, _, c => .ok c
  | fuel + 1, n, c => do
      if s.repetitions.any (· < n) then .ok c
      else run isDropped s fuel (n + 1) (← c.cutAt isDropped s.repetitions.isNone n s.border)

end Cutter

/-- The sections of a text, and whether all borders were found. What is behind the last
border is a section, too. -/
def cut (isDropped : Bool) (steps : List Step) (text : List Char) : List (List Char) × Bool :=
  let fuel := fun (s : Step) => s.repetitions.elim (text.length + 2) (· + 1)
  let result := steps.foldlM (fun c s => Cutter.run isDropped s (fuel s) 0 c) (Cutter.start text)
  match result with
  | .ok c => ((c.take c.rest.length false).sections.reverse, true)
  | .error (isGood, sections) => (sections.reverse, isGood)

/-! ## Arguments -/

/-- The flags of the program that cuts a text at borders. -/
def table : FlagTable where
  plain := "ksqzm"
  valued := "bfn"
  long := [("suffix-format", 'b'), ("prefix", 'f'), ("keep-files", 'k'), ("digits", 'n'),
    ("quiet", 's'), ("silent", 's'), ("elide-empty-files", 'z'), ("suppress-matched", 'm')]
  isMixed := true

/-- Has a format just one conversion, which is one for integers? -/
def isSuffixFormat (format : List Char) : Bool :=
  let (parts, isGood) := formatParts .none (format.length + 1) format
  let letters := parts.filterMap fun part =>
    match part with
    | .conversion c => some c.letter
    | .text _ => none
  isGood && letters.length == 1 && letters.all ['d', 'i', 'u', 'o', 'x', 'X'].contains

/-- What is behind the stem in the name of a section. -/
def suffix? (f : Flags) (n : Nat) : Option (List Char) := do
  match f.value? 'b' with
  | some format =>
      if isSuffixFormat format then some (formatText .none format [Text.decimal n]).1 else none
  | none =>
      let width ← f.number? 'n' 2
      let digits := Text.decimal n
      return List.replicate (width - digits.length) '0' ++ digits

/-- The names of so many sections. -/
def names? (f : Flags) (count : Nat) : Option (List (List Char)) :=
  (List.range (max 1 count)).mapM fun n =>
    (suffix? f n).map fun suffix => (f.value? 'f').getD ['x', 'x'] ++ suffix

end PlanOrbits.Shell.Sections
