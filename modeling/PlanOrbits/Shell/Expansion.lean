import PlanOrbits.Shell.Arithmetic
import PlanOrbits.Shell.Line
import PlanOrbits.Shell.Entry
import PlanOrbits.Shell.Wildcard

/-!
# Expansion of words

A word becomes a text when the values of its expansions are put in. Values that
are not quoted are cut into fields, so that one word may become several, or none;
and a field that is a pattern becomes the paths of the files that match it, if
there are any.
-/

namespace PlanOrbits.Shell

/-! ## Fields -/

/-- The fields of a word so far. -/
structure Fields where
  /-- The complete fields, the last one first. -/
  complete : List Marked
  /-- The field that may go on, its last character first. -/
  open? : Option Marked
  /-- Did a blank end the last field? Then a separator behind it is a part of the
  same gap. -/
  isAfterBlank : Bool

namespace Fields

/-- No field. -/
def none : Fields := { complete := [], open? := .none, isAfterBlank := false }

variable (f : Fields)

/-- Put a text into the field that may go on. -/
def add (text : Marked) : Fields :=
  { f with open? := some (text.reverseAux (f.open?.getD [])), isAfterBlank := false }

/-- No longer go on with a field. -/
def close : Fields :=
  match f.open? with
  | .none => f
  | some field => { f with complete := field.reverse :: f.complete, open? := .none }

/-- Put in a separator: blanks in a row are one, any other separator ends a field,
even an empty one. -/
def separate (c : Char) : Fields :=
  if isBlank c || c == '\n' then
    if f.open?.isSome then { f.close with isAfterBlank := true } else f
  else if f.open?.isSome then f.close
  else if f.isAfterBlank then { f with isAfterBlank := false }
  else { f with complete := [] :: f.complete }

/-- Put in a text that is cut at separators. -/
def addCut (separators text : List Char) : Fields :=
  text.foldl (fun f c => if separators.contains c then f.separate c else f.add [(c, false)]) f

/-- All fields in their order. -/
def toList : List Marked := f.close.complete.reverse

end Fields

/-! ## Segments -/

/-- A part of an expanded word. -/
structure Segment where
  text : List Char
  isQuoted : Bool
  /-- Does the text come from an expansion? -/
  isExpanded : Bool
  /-- Does a new field begin here in any case? -/
  isApart : Bool

namespace Segment

/-- The text of segments. -/
def textOf : List Segment → List Char
  | [] => []
  | [s] => if s.isApart then ' ' :: s.text else s.text
  | s :: ss => (if s.isApart then ' ' :: s.text else s.text) ++ textOf ss

/-- The pattern of segments. -/
def pattern (ss : List Segment) : Pattern :=
  Marked.pattern (ss.flatMap fun s => Marked.ofText s.isQuoted s.text)

/-- A text from an expansion. -/
def ofText (isQuoted : Bool) (text : List Char) : Segment :=
  { text, isQuoted, isExpanded := true, isApart := false }

/-- Texts from an expansion, each a field of its own. -/
def ofTexts (isQuoted : Bool) : List (List Char) → List Segment
  | [] => []
  | text :: texts =>
      ofText isQuoted text :: texts.map fun text => { ofText isQuoted text with isApart := true }

/-- The fields of segments. -/
def fields (separators : List Char) (ss : List Segment) : List Marked :=
  (ss.foldl (fun (f : Fields) s =>
    let f := if s.isApart then f.close else f
    if s.isExpanded && !s.isQuoted then f.addCut separators s.text
    else f.add (Marked.ofText s.isQuoted s.text)) Fields.none).toList

end Segment

/-! ## Home directories -/

/-- The home directory of a user; without a name, of the one who runs the shell. -/
def homeOf? (s : Machine) (name : List Char) : Option (List Char) :=
  if name.isEmpty then s.binding? "HOME".toList
  else if name == "root".toList then some "/root".toList
  else none

/-- A text in which a tilde at the beginning stands for a home directory. -/
def homedText (s : Machine) (isWhole : Bool) (cs : List Char) : Word :=
  match cs with
  | '~' :: rest =>
      let name := rest.takeWhile (· != '/')
      let behind := rest.drop name.length
      match if behind.isEmpty && !isWhole then none else homeOf? s name with
      | some home => [.text home true, .text behind false]
      | none => [.text cs false]
  | _ => [.text cs false]

/-- A word in which a tilde at the beginning stands for a home directory; where a value
is assigned, also a tilde behind a colon. -/
def Word.homed (s : Machine) (isAssigned : Bool) (isAtStart : Bool) : Word → Word
  | [] => []
  | .text cs false :: w =>
      if !cs.contains '~' then .text cs false :: homed s isAssigned false w
      else
        let parts := if isAssigned then Text.pieces (· == ':') cs else [cs]
        let homedParts := parts.mapIdx fun n part =>
          let isLast := n + 1 = parts.length
          let text : Word :=
            if 0 < n || isAtStart then homedText s (!isLast || w.isEmpty) part
            else [.text part false]
          if isLast then text else text ++ [.text [':'] false]
        homedParts.flatten ++ homed s isAssigned false w
  | p :: w => p :: homed s isAssigned false w

/-- How deep expansions may stand inside of a piece. -/
def Piece.depth : Piece → Nat
  | .adjusted _ _ _ argument _ => argument.length + 1
  | .arithmetic expression => expression.length + 1
  | _ => 0

namespace Action

variable {m : Type → Type} [Monad m]

/-- Drop the line feeds at the end. -/
def dropFinalBreaks (cs : List Char) : List Char :=
  (cs.reverse.dropWhile (· == '\n')).reverse

/-- The output of a script, which words may contain. -/
abbrev Substitute (m : Type → Type) := List Char → Action m (List Char)

/-- The variables of a shell. -/
def machineVariables : Arithmetic.Variables Machine where
  value := Machine.value
  assign name value s := s.assign name value

section Values

variable [Storage m]

/-- The value of an arithmetic expression. An expression without a value ends the
shell. -/
def arithmeticText (expression : List Char) : Action m (List Char) := do
  match Arithmetic.evaluate machineVariables (← get) expression with
  | .ok (n, s) =>
      set s
      return Arithmetic.textOf n
  | .error fault => fail (fault.message expression)

/-- The value of a parameter as segments. -/
def parameterSegments (name : List Char) (isQuoted : Bool) : Action m (List Segment) := do
  let s ← get
  match name with
  | ['@'] => return Segment.ofTexts isQuoted s.parameters.tail
  | ['*'] =>
      if isQuoted then
        return [Segment.ofText true (List.intercalate (s.separators.take 1) s.parameters.tail)]
      else return Segment.ofTexts false s.parameters.tail
  | _ =>
      match s.value? name with
      | some value => return [Segment.ofText isQuoted value]
      | none =>
          if s.isOn .noUnset && name != ['!'] then
            fail (String.ofList name ++ ": parameter not set")
          else return [Segment.ofText isQuoted []]

/-- A value after an adjustment with the segments of its argument. -/
def adjust (name : List Char) (adjustment : Adjustment) (emptyIsNone isQuoted : Bool)
    (argument : Action m (List Segment)) : Action m (List Segment) := do
  let s ← get
  let isNone := (name == ['@'] || name == ['*']) && s.parameters.length ≤ 1
  let value? := (s.value? name).filter fun value => !isNone && !(emptyIsNone && value.isEmpty)
  let segment := fun text => [Segment.ofText isQuoted text]
  let fromArgument : Action m (List Segment) := do
    if isQuoted then return segment (Segment.textOf (← argument))
    else return (← argument).map fun s => { s with isExpanded := true }
  match adjustment, value? with
  | .count, _ =>
      return segment (Text.decimal ((s.value? name).getD []).length)
  | .orElse, some _ | .orAssign, some _ | .orFail, some _ => parameterSegments name isQuoted
  | .orElse, none | .ifThere, some _ => fromArgument
  | .ifThere, none => return if isQuoted then segment [] else []
  | .orAssign, none =>
      let value := Segment.textOf (← argument)
      assign name value
      return segment value
  | .orFail, none =>
      let message := Segment.textOf (← argument)
      fail (String.ofList (name ++ [':', ' ']) ++
        (if message.isEmpty then "parameter not set" else String.ofList message))
  | .dropFront isLongest, _ =>
      let p := Segment.pattern (← argument)
      return segment (p.dropFront isLongest (value?.getD []))
  | .dropBack isLongest, _ =>
      let p := Segment.pattern (← argument)
      return segment (p.dropBack isLongest (value?.getD []))

/-- The word of an argument. Where it is quoted as a whole, it is quoted unless it
is a pattern. -/
def argumentWord (adjustment : Adjustment) (isQuoted : Bool) (argument : List Char) : Word :=
  match isQuoted, adjustment with
  | true, .orElse | true, .orAssign | true, .ifThere | true, .orFail =>
      (quotedWord? .argument argument).getD []
  | _, _ => (wordOfText? argument).getD []

/-- The segments of a piece. Arguments are expanded in turn; they become shorter,
so that the length of an argument bounds the depth. -/
def segments (substitute : Substitute m) : (depth : Nat) → Piece → Action m (List Segment)
  | _, .text text isQuoted => return [{ text, isQuoted, isExpanded := false, isApart := false }]
  | _, .parameter name isQuoted => parameterSegments name isQuoted
  | _, .substitution script isQuoted => do
      return [Segment.ofText isQuoted (dropFinalBreaks (← substitute script))]
  | 0, .arithmetic _ | 0, .adjusted .. => return []
  | depth + 1, .arithmetic expression => do
      let inner ← ((quotedWord? .hereText expression).getD []).mapM (segments substitute depth)
      return [Segment.ofText true (← arithmeticText (Segment.textOf inner.flatten))]
  | depth + 1, .adjusted name adjustment emptyIsNone argument isQuoted =>
      adjust name adjustment emptyIsNone isQuoted do
        let inner ← (argumentWord adjustment isQuoted argument).mapM (segments substitute depth)
        return inner.flatten

/-- The segments of a word. -/
def wordSegments (substitute : Substitute m) (w : Word) : Action m (List Segment) := do
  return (← w.mapM fun p => segments substitute p.depth p).flatten

/-- A word as one text. -/
def wordText (substitute : Substitute m) (w : Word) : Action m (List Char) := do
  if let some text := w.plain? then return text
  return Segment.textOf (← wordSegments substitute (w.homed (← get) false true))

/-- A word as the value of a variable. -/
def wordValue (substitute : Substitute m) (w : Word) : Action m (List Char) := do
  if let some text := w.plain? then return text
  return Segment.textOf (← wordSegments substitute (w.homed (← get) true true))

/-- A word as a pattern. -/
def wordPattern (substitute : Substitute m) (w : Word) : Action m Pattern := do
  return Segment.pattern (← wordSegments substitute w)

/-! ## Paths that match -/

/-- The names in a directory that match a pattern, in the order of their bytes. A
name that begins with a dot matches only where the pattern begins with one. -/
def matchingNames (directory : List Char) (p : Marked) : Action m (List (List Char)) := do
  let names? ← entryNames? (if directory.isEmpty then ['.'] else directory)
  let names := names?.elim [] fun names => ['.'] :: ['.', '.'] :: names
  let names := names.filter fun name =>
    (p.pattern).matchesAll name && (name.head? != some '.' || p.head?.map Prod.fst == some '.')
  return Line.sorted names

/-- The paths that match a pattern, which is given in its parts between slashes,
below a directory. -/
def matchingPaths (base : List Char) : List Marked → Action m (List (List Char))
  | [] => return [base]
  | p :: ps => do
      let joint := if base.isEmpty || base.getLast? == some '/' then [] else ['/']
      let name := p.map Prod.fst
      if p.isEmpty then matchingPaths (base ++ ['/']) ps
      else if name == ['.'] || name == ['.', '.'] then matchingPaths (base ++ joint ++ name) ps
      else
        let names ← matchingNames base p
        return (← names.mapM fun name => matchingPaths (base ++ joint ++ name) ps).flatten

/-- A field as a text, or as the paths that match it. -/
def fieldTexts (field : Marked) : Action m (List (List Char)) := do
  let text := field.map Prod.fst
  if !field.isPattern || (← get).isOn .noWildcards then return [text]
  let parts := field.parts
  let paths ←
    match parts with
    | [] :: ps => matchingPaths ['/'] ps
    | ps => matchingPaths [] ps
  return if paths.isEmpty then [text] else paths

/-- A word as fields. -/
def wordFields (substitute : Substitute m) (w : Word) : Action m (List (List Char)) := do
  if let some text := w.plain? then return [text]
  let segments ← wordSegments substitute (w.homed (← get) false true)
  return (← (Segment.fields (← get).separators segments).mapM fieldTexts).flatten

/-- Words as fields. -/
def wordsFields (substitute : Substitute m) (ws : List Word) :
    Action m (List (List Char)) := do
  return (← ws.mapM (wordFields substitute)).flatten

end Values

end Action

end PlanOrbits.Shell
