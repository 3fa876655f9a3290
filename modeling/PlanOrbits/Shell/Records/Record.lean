import PlanOrbits.Shell.Records.Value
import PlanOrbits.Shell.Pattern

/-!
# Records and fields

How a text is cut into records, and a record into fields. A separator is one
character, a pattern, or one of two special cases: a blank as separator of fields
means any gap, and no separator of records means empty lines.
-/

namespace PlanOrbits.Shell.Records

/-! ## Patterns -/

/-- A written pattern with the escapes for single characters resolved; those that
keep a character from having a meaning stay, outside of brackets. -/
def resolveEscapes : Nat → (isInBrackets : Bool) → List Char → List Char
  | 0, _, _ | _, _, [] => []
  | fuel + 1, isInside, '\\' :: c :: cs =>
      if c == '"' || c == '/' || c == '&' then c :: resolveEscapes fuel isInside cs
      else
        match control? c with
        | some x =>
            if c == '\\' && !isInside then '\\' :: '\\' :: resolveEscapes fuel isInside cs
            else x :: resolveEscapes fuel isInside cs
        | none =>
            if isInside then c :: resolveEscapes fuel isInside cs
            else '\\' :: c :: resolveEscapes fuel isInside cs
  | fuel + 1, false, '[' :: '^' :: c :: cs =>
      if c == '\\' then '[' :: '^' :: resolveEscapes fuel true (c :: cs)
      else '[' :: '^' :: c :: resolveEscapes fuel true cs
  | fuel + 1, false, '[' :: c :: cs =>
      if c == '\\' || c == '[' then '[' :: resolveEscapes fuel true (c :: cs)
      else '[' :: c :: resolveEscapes fuel true cs
  | fuel + 1, true, '[' :: ':' :: cs =>
      let name := cs.takeWhile (· != ']')
      '[' :: ':' :: name ++ (cs.drop name.length).take 1 ++
        resolveEscapes fuel true (cs.drop (name.length + 1))
  | fuel + 1, isInside, c :: cs => c :: resolveEscapes fuel (isInside && c != ']') cs

/-- The pattern that a text spells; one that is not well formed occurs nowhere. -/
def patternOf (cs : List Char) : Pattern :=
  (Pattern.ofChars? .extended (resolveEscapes (cs.length + 1) false cs)).getD .never

/-! ## Cutting -/

/-- Cut a text at the first occurrence of a pattern that is not empty. -/
def cutAtPattern? (p : Pattern) (cs : List Char) : Option (List Char × List Char) :=
  match p.occurrence? none cs with
  | some o => if o.text.isEmpty then none else some (o.before, o.rest)
  | none => none

/-- The pieces of a text between the occurrences of a pattern. -/
def piecesBetween (p : Pattern) : Nat → List Char → List (List Char)
  | 0, cs => [cs]
  | fuel + 1, cs =>
      match cutAtPattern? p cs with
      | some (piece, rest) => piece :: piecesBetween p fuel rest
      | none => [cs]

/-- Does a character belong to the gaps between fields? -/
def isGap (c : Char) : Bool := c == ' ' || c == '\t' || c == '\n'

/-- The fields of a record. Where records are paragraphs, line feeds separate fields,
too. -/
def fieldsOf (separator : List Char) (isParagraph : Bool) (cs : List Char) : List (List Char) :=
  if cs.isEmpty then []
  else
    match separator with
    | [] => cs.map ([·])
    | [' '] => (Text.pieces isGap cs).filter (!·.isEmpty)
    | [c] => Text.pieces (fun d => d == c || isParagraph && d == '\n') cs
    | _ =>
        let p := patternOf separator
        piecesBetween (if isParagraph then p.orElse (.char '\n') else p) (cs.length + 1) cs

/-- The first record of a text that is not empty, and what is left. -/
def cutRecord (separator cs : List Char) : List Char × List Char :=
  match separator with
  | [] =>
      let gap := (Pattern.char '\n').andThen ((Pattern.char '\n').andThen (.many (.char '\n')))
      match cutAtPattern? gap cs with
      | some (record, rest) => (record, rest)
      | none => (if cs.getLast? == some '\n' then cs.dropLast else cs, [])
  | [c] => (cs.takeWhile (· != c), (cs.dropWhile (· != c)).drop 1)
  | _ =>
      match cutAtPattern? (patternOf separator) cs with
      | some (record, rest) => (record, rest)
      | none => (if cs.getLast? == some '\n' then cs.dropLast else cs, [])

/-- A text in front of its first record. -/
def beforeRecord (separator cs : List Char) : List Char :=
  if separator.isEmpty then cs.dropWhile (· == '\n') else cs

/-! ## Replacing -/

/-- The text that is put in the place of an occurrence: an ampersand stands for what
occurred, unless a backslash protects it. -/
def replacement (text : List Char) : List Char → List Char
  | [] => []
  | '\\' :: '&' :: cs => '&' :: replacement text cs
  | '\\' :: '\\' :: cs => '\\' :: replacement text cs
  | '&' :: cs => text ++ replacement text cs
  | c :: cs => c :: replacement text cs

/-- Put a text in the place of the first occurrence, or of all of them; also counts
them. An empty occurrence right behind another one does not count. `before` is the
character in front of the text. -/
def replaceIn (p : Pattern) (isGlobal : Bool) (new : List Char) :
    Nat → (before : Option Char) → (isBehind : Bool) → List Char → List Char × Nat
  | 0, _, _, cs => (cs, 0)
  | fuel + 1, before, isBehind, cs =>
      match p.occurrence? before cs with
      | none => (cs, 0)
      | some o =>
          if o.text.isEmpty && o.before.isEmpty && isBehind then
            match cs with
            | [] => ([], 0)
            | c :: cs =>
                let (rest, n) := replaceIn p isGlobal new fuel (some c) false cs
                (c :: rest, n)
          else
            let text := o.before ++ replacement o.text new
            if isGlobal then
              let (rest, n) := replaceIn p isGlobal new fuel (o.last? before) true o.rest
              (text ++ rest, n + 1)
            else (text ++ o.rest, 1)

end PlanOrbits.Shell.Records
