import PlanOrbits.Text.Digits

/-!
# Texts in documents

The four ways to write a text:

* **plain**, without quotes, up to something that cannot belong to it;
* between **single quotes**, where a quote is written twice;
* between **double quotes**, with escapes;
* as a **block** of indented lines, either literal or folded.

Each reader takes a cursor and returns the text and the cursor behind it, or
nothing if what is there is not well formed. The readers run on fuel; the length
of the rest is always enough, for every round consumes a character.
-/

/-!
## Places in a document

The characters of a document, and a cursor that walks over them and knows its
line and column, because columns carry the structure of a document.

* **Line breaks are made uniform first**, except for the two separators of
  Unicode, which stay what they are.
* A **gap** is a run of blanks and breaks. Inside of a text a gap is folded: a
  single line break counts as a space, and of several breaks the first is
  dropped.
-/

namespace PlanOrbits.Yaml

/-! ### Characters -/

/-- The characters that may stand in a document. -/
def isAllowed (c : Char) : Bool :=
  let n := c.toNat
  n == 0x09 || n == 0x0A || n == 0x0D || (0x20 ≤ n && n ≤ 0x7E) || n == 0x85 ||
    (0xA0 ≤ n && n ≤ 0xFFFD) || 0x10000 ≤ n

/-- Write every line break in one way. -/
def unifyBreaks : List Char → List Char
  | [] => []
  | '\r' :: '\n' :: cs => '\n' :: unifyBreaks cs
  | c :: cs => (if c == '\r' || c == '\u0085' then '\n' else c) :: unifyBreaks cs

/-- The characters of a document, if all of them are allowed. -/
def characters? (text : String) : Option (List Char) :=
  if text.toList.all isAllowed then some (unifyBreaks text.toList) else none

/-- The mark of the byte order. It may begin any line. -/
def byteOrderMark : Char := '\ufeff'

def isBlank (c : Char) : Bool := c == ' ' || c == '\t'

def isBreak (c : Char) : Bool := c == '\n' || c == '\u2028' || c == '\u2029'

def isGap (c : Char) : Bool := isBlank c || isBreak c

/-- Is here a gap or the end? -/
def startsWithGap : List Char → Bool
  | [] => true
  | c :: _ => isGap c

/-- The characters that structure collections in brackets. -/
def isBracketOrComma (c : Char) : Bool :=
  c == ',' || c == '[' || c == ']' || c == '\x7b' || c == '\x7d'

/-! ### Folding -/

/-- What a gap with the given breaks, after the first one, stands for. -/
def foldBreaks (first : Char) (others : List Char) : List Char :=
  if first == '\n' then if others.isEmpty then [' '] else others else first :: others

/-- What a gap inside of a text stands for. -/
def foldGap (gap : List Char) : List Char :=
  match gap.filter isBreak with
  | [] => gap
  | first :: others => foldBreaks first others

/-! ### Cursors -/

/-- A place in a document, with the characters from there on. -/
structure Cursor where
  rest : List Char
  /-- How many bytes are behind the cursor. -/
  offset : Nat
  line : Nat
  column : Nat

namespace Cursor

/-- The beginning of a document. -/
def start (cs : List Char) : Cursor := { rest := cs, offset := 0, line := 0, column := 0 }

/-- Go over one character. -/
def next (c : Cursor) : Cursor :=
  match c.rest with
  | [] => c
  | x :: rest =>
      let offset := c.offset + x.utf8Size
      if isBreak x then { rest, offset, line := c.line + 1, column := 0 }
      else { c with rest, offset, column := c.column + 1 }

/-- Go over the given number of characters. -/
def advance : Nat → Cursor → Cursor
  | 0, c => c
  | n + 1, c => advance n c.next

/-- The characters of a class from here on. -/
def run (c : Cursor) (p : Char → Bool) : List Char := c.rest.takeWhile p

/-- Go over the characters of a class. -/
def skip (c : Cursor) (p : Char → Bool) : Cursor := advance (c.run p).length c

/-- Is here a line that begins with three of the given characters and a gap? -/
def isAtMarker (c : Cursor) (mark : Char) : Bool :=
  c.column == 0 && [mark, mark, mark].isPrefixOf c.rest && startsWithGap (c.rest.drop 3)

/-- Is here the beginning or the end of a document? -/
def isAtDocument (c : Cursor) : Bool := c.isAtMarker '-' || c.isAtMarker '.'

end Cursor

/-! ## Scalars -/

/-- A text in a document. Only plain texts may stand for other values. -/
structure Scalar where
  isPlain : Bool
  text : String
  deriving DecidableEq, Repr

/-! ## Plain texts -/

/-- Does a line of a gap, after the first one, begin with a tab inside of its
indentation? -/
def hasTabInIndent (indent : Nat) : List Char → Bool
  | [] => false
  | c :: cs => (isBreak c && (cs.takeWhile isBlank |>.take indent).contains '\t') ||
      hasTabInIndent indent cs

/-- The characters of a plain text up to a gap or an end, or `none` if a colon
stands where it means nothing. -/
def plainRun? (inFlow : Bool) : List Char → Option (List Char)
  | [] => some []
  | c :: cs =>
      if isGap c then some []
      else if c == ':' && startsWithGap cs then some []
      else if inFlow && c == ':' && cs.head?.any (fun d => isBracketOrComma d || d == '?') then none
      else if inFlow && isBracketOrComma c then some []
      else (plainRun? inFlow cs).map (c :: ·)

/-- A plain text; `indent` is the least column at which its lines may go on. Also
tells whether the cursor ends on another line. -/
def plain? (inFlow : Bool) (indent : Nat) : Nat → Cursor → Option (List Char × Bool × Cursor)
  | 0, _ => none
  | fuel + 1, c => do
      let run ← plainRun? inFlow c.rest
      let behind := Cursor.advance run.length c
      let gap := behind.run isGap
      let here := behind.skip isGap
      let isBroken := gap.any isBreak
      if hasTabInIndent indent gap then none
      else if gap.isEmpty || here.rest.isEmpty || (!inFlow && here.column < indent) ||
          here.isAtDocument || here.rest.head? == some '#' then
        return (run, isBroken, here)
      else
        let (more, brokenLater, last) ← plain? inFlow indent fuel here
        if more.isEmpty then return (run, isBroken || brokenLater, last)
        else return (run ++ foldGap gap ++ more, brokenLater, last)

/-! ## Quoted texts -/

/-- The character with a code in hexadecimal digits. -/
def charOfHex? (digits : List Char) : Option Char := do
  let code := (← digits.mapM Text.hexDigit?).foldl (16 * · + ·) 0
  if h : code.isValidChar then some (Char.ofNatAux code h) else none

/-- How many hexadecimal digits follow the letter of an escape. -/
def escapeDigits? : Char → Option Nat
  | 'x' => some 2
  | 'u' => some 4
  | 'U' => some 8
  | _ => none

/-- The character that a letter stands for in an escape without digits. -/
def escaped? : Char → Option Char
  | '0' => some '\x00'
  | 'a' => some '\x07'
  | 'b' => some '\x08'
  | 't' => some '\t'
  | '\t' => some '\t'
  | 'n' => some '\n'
  | 'v' => some '\x0b'
  | 'f' => some '\x0c'
  | 'r' => some '\r'
  | 'e' => some '\x1b'
  | ' ' => some ' '
  | '"' => some '"'
  | '/' => some '/'
  | '\\' => some '\\'
  | 'N' => some '\u0085'
  | '_' => some '\u00a0'
  | 'L' => some '\u2028'
  | 'P' => some '\u2029'
  | _ => none

/-- One character of a text between quotes, and how many characters it takes; no
character at a gap, at the closing quote or before an escaped line break. -/
def quotedChar? (quote : Char) : List Char → Option (Option (Char × Nat))
  | [] => some none
  | c :: cs =>
      if isGap c then some none
      else if c == quote then
        if quote == '\'' && cs.head? == some quote then some (some (quote, 2)) else some none
      else if c == '\\' && quote == '"' then
        match cs with
        | [] => none
        | d :: ds =>
            if isBreak d then some none
            else
              match escapeDigits? d with
              | some n => (charOfHex? (ds.take n)).bind fun x =>
                  if (ds.take n).length == n then some (some (x, n + 2)) else none
              | none => (escaped? d).map fun x => some (x, 2)
      else some (some (c, 1))

/-- The characters of a text between quotes up to a gap, the closing quote or an
escaped line break. -/
def quotedRun? (quote : Char) : Nat → Cursor → Option (List Char × Cursor)
  | 0, _ => none
  | fuel + 1, c => do
      match ← quotedChar? quote c.rest with
      | none => return ([], c)
      | some (x, n) =>
          let (more, last) ← quotedRun? quote fuel (Cursor.advance n c)
          return (x :: more, last)

/-- A text between quotes; the cursor is behind the opening quote. -/
def quoted? (quote : Char) : Nat → Cursor → Option (List Char × Cursor)
  | 0, _ => none
  | fuel + 1, c => do
      if c.isAtDocument then none
      let (run, behind) ← quotedRun? quote (c.rest.length + 1) c
      match behind.rest with
      | [] => none
      | d :: _ =>
          if d == quote then return (run, behind.next)
          else
            let isEscaped := d == '\\'
            let first := if isEscaped then Cursor.advance 2 behind else behind
            let gap := first.run isGap
            let fold := if isEscaped then gap.filter isBreak else foldGap gap
            let (more, last) ← quoted? quote fuel (first.skip isGap)
            return (run ++ fold ++ more, last)

/-! ## Blocks -/

/-- What becomes of the line breaks at the end of a block. -/
inductive Chomping where
  | strip
  | clip
  | keep
  deriving DecidableEq, Repr

/-- The chomping that a sign asks for. -/
def Chomping.ofSign? : Char → Option Chomping
  | '+' => some .keep
  | '-' => some .strip
  | _ => none

/-- How many columns a block is indented by, if a digit says so. -/
def increment? (c : Char) : Option Nat :=
  if '1' ≤ c ∧ c ≤ '9' then some (c.toNat - '0'.toNat) else none

/-- The signs behind the indicator of a block, in either order. -/
def blockHeader (c : Cursor) : Chomping × Option Nat × Cursor :=
  match c.rest with
  | a :: rest =>
      match Chomping.ofSign? a, increment? a with
      | some chomping, _ =>
          match rest.head?.bind increment? with
          | some n => (chomping, some n, Cursor.advance 2 c)
          | none => (chomping, none, c.next)
      | none, some n =>
          match rest.head?.bind Chomping.ofSign? with
          | some chomping => (chomping, some n, Cursor.advance 2 c)
          | none => (.clip, some n, c.next)
      | none, none => (.clip, none, c)
  | [] => (.clip, none, c)

/-- Go over the indentation of lines, and over empty lines. Returns their breaks,
the deepest column, and the cursor at a line that is not empty. -/
def blockGap? (indent : Option Nat) : Nat → Nat → Cursor → Option (List Char × Nat × Cursor)
  | 0, _, _ => none
  | fuel + 1, deepest, c =>
      let spaces := c.run (· == ' ')
      let here := Cursor.advance
        (match indent with
          | none => spaces.length
          | some n => min spaces.length (n - c.column)) c
      let deepest := max deepest here.column
      match here.rest with
      | [] => some ([], deepest, here)
      | d :: _ =>
          if d == '\t' && indent.all (here.column < ·) then none
          else if isBreak d then do
            let (breaks, deepest, last) ← blockGap? indent fuel deepest here.next
            return (d :: breaks, deepest, last)
          else some ([], deepest, here)

/-- The lines of a block that are indented by `indent`, after the break and the
empty lines before them. -/
def blockLines? (isLiteral : Bool) (indent : Nat) (chomping : Chomping) :
    Nat → Bool → List Char → List Char → Cursor → Option (List Char × Cursor)
  | 0, _, _, _, _ => none
  | fuel + 1, wasBlank, lastBreak, emptyLines, c =>
      if c.column == indent && !c.rest.isEmpty then do
        let isBlankLine := c.rest.head?.any isBlank
        let joint :=
          if !isLiteral && lastBreak == ['\n'] && !wasBlank && !isBlankLine then
            if emptyLines.isEmpty then [' '] else emptyLines
          else lastBreak ++ emptyLines
        let line := c.run (!isBreak ·)
        let behind := c.skip (!isBreak ·)
        let (breaks, _, next) ←
          blockGap? (some indent) (behind.rest.length + 1) 0 behind.next
        let (more, last) ←
          blockLines? isLiteral indent chomping fuel isBlankLine (behind.rest.take 1) breaks next
        return (joint ++ line ++ more, last)
      else
        match chomping with
        | .strip => some ([], c)
        | .clip => some (lastBreak, c)
        | .keep => some (lastBreak ++ emptyLines, c)

/-- A block; the cursor is behind its indicator. `level` is the column of the
collection around it plus one, or zero. -/
def block? (isLiteral : Bool) (level : Nat) (c : Cursor) : Option (List Char × Cursor) := do
  let fuel := c.rest.length + 1
  let (chomping, increment, behind) := blockHeader c
  let here := behind.skip isBlank
  let here := if here.rest.head? == some '#' then here.skip (!isBreak ·) else here
  if here.rest.head?.any (!isBreak ·) then none
  let given := increment.map ((level - 1) + ·)
  let (breaks, deepest, first) ← blockGap? given fuel 0 here.next
  let indent := given.getD (max (max deepest level) 1)
  blockLines? isLiteral indent chomping fuel false [] breaks first

end PlanOrbits.Yaml
