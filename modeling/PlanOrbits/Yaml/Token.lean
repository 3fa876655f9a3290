import PlanOrbits.Yaml.Scalar

/-!
# Tokens of documents

A document as a list of tokens in which indentation has become explicit: a block
collection is opened and closed by tokens like a collection in brackets.

* **A key is recognised late**, at the colon behind it. So a place in the list is
  kept free in front of everything that may turn out to be a key, and is filled
  when the colon comes. A key stands on one line and has at most 1024 bytes.
* **Where a key must be** nothing else may be: a text at the indentation of a
  block map has to be followed by a colon.

Anchors, aliases, tags and directives are refused.
-/

namespace PlanOrbits.Yaml

/-- A part of a document. -/
inductive Token where
  /-- The line before a document. -/
  | documentStart
  /-- The line behind a document. -/
  | documentEnd
  /-- A list whose items are indented. -/
  | openList
  /-- A map whose keys are indented. -/
  | openMap
  /-- The end of the innermost indented collection. -/
  | close
  | openFlowList
  | closeFlowList
  | openFlowMap
  | closeFlowMap
  /-- The dash before an item. -/
  | item
  /-- The comma. -/
  | separator
  | key
  | value
  | scalar (s : Scalar)
  deriving DecidableEq, Repr

namespace Token

/-- Something that may turn out to be a key. -/
structure Candidate where
  /-- The place of the tokens that come before the key. -/
  slot : Nat
  offset : Nat
  line : Nat
  column : Nat
  /-- Is nothing but a key allowed here? -/
  isRequired : Bool

/-- The bytes of the longest key. -/
def keyLimit : Nat := 1024

/-- Can the candidate no longer be a key at the given place? -/
def Candidate.isStale (k : Candidate) (c : Cursor) : Bool :=
  k.line < c.line || k.offset + keyLimit < c.offset

/-- The state in the middle of a document. -/
structure Reading where
  cursor : Cursor
  /-- The tokens so far; a place that is kept free has none. -/
  tokens : Array (List Token)
  /-- The columns of the indented collections, the innermost first. -/
  indents : List Nat
  /-- The candidate in the innermost brackets. -/
  candidate : Option Candidate
  /-- The candidates outside of the innermost brackets. There is one entry for
  each open bracket. -/
  outer : List (Option Candidate)
  /-- Can a key begin here? -/
  isKeyAllowed : Bool

namespace Reading

/-- The state before a document. -/
def start (cs : List Char) : Reading :=
  { cursor := Cursor.start cs, tokens := #[], indents := [], candidate := none, outer := [],
    isKeyAllowed := true }

variable (r : Reading)

/-- Is the cursor between brackets? -/
def isInFlow : Bool := !r.outer.isEmpty

/-- The column at which the lines of a text may go on, at least. -/
def level : Nat :=
  match r.indents with
  | [] => 0
  | indent :: _ => indent + 1

/-- The state with one more token. -/
def emit (t : Token) : Reading := { r with tokens := r.tokens.push [t] }

/-- Close the indented collections deeper than the limit, or all without one.
Indentation does not count between brackets. -/
def closeBeyond (limit : Option Nat) : Reading :=
  if r.isInFlow then r
  else
    let isDeep := fun indent => limit.all (· < indent)
    { r with
      tokens := r.tokens ++ ((r.indents.takeWhile isDeep).map fun _ => [Token.close]).toArray
      indents := r.indents.dropWhile isDeep }

/-- Would a collection at this column be a new one? -/
def opensAt (column : Nat) : Bool := !r.isInFlow && r.level ≤ column

/-- Open an indented collection, unless it is open already. -/
def openAt (column : Nat) (t : Token) : Reading :=
  if r.opensAt column then { r.emit t with indents := column :: r.indents } else r

/-- Give up the candidate, which must not be required. -/
def dropCandidate? : Option Reading :=
  if r.candidate.any (·.isRequired) then none else some { r with candidate := none }

/-- Give up a candidate that has become stale. -/
def keepFresh? (c : Cursor) : Option Candidate → Option (Option Candidate)
  | none => some none
  | some k =>
      if k.isStale c then if k.isRequired then none else some none else some (some k)

/-- Give up all candidates that have become stale. -/
def dropStale? : Option Reading := do
  let candidate ← keepFresh? r.cursor r.candidate
  let outer ← r.outer.mapM (keepFresh? r.cursor)
  return { r with candidate, outer }

/-- What comes next may be a key. -/
def saveCandidate? : Option Reading :=
  if r.isKeyAllowed then do
    let c := r.cursor
    let isRequired := !r.isInFlow && r.indents.head? == some c.column
    let r ← r.dropCandidate?
    return { r with
      candidate := some
        { slot := r.tokens.size, offset := c.offset, line := c.line, column := c.column,
          isRequired }
      tokens := r.tokens.push [] }
  else some r

/-- Go over blanks, comments and line breaks, and over the mark of the byte order
at the beginning of a line. A tab is no blank where a block collection can
begin. -/
def skipGaps : Nat → Reading → Reading
  | 0, r => r
  | fuel + 1, r =>
      match r.cursor.rest with
      | [] => r
      | c :: _ =>
          if c == ' ' || (c == '\t' && (r.isInFlow || !r.isKeyAllowed)) ||
              (c == byteOrderMark && r.cursor.column == 0) then
            skipGaps fuel { r with cursor := r.cursor.next }
          else if c == '#' then skipGaps fuel { r with cursor := r.cursor.skip (!isBreak ·) }
          else if isBreak c then
            skipGaps fuel
              { r with
                cursor := r.cursor.next
                isKeyAllowed := r.isKeyAllowed || !r.isInFlow }
          else r

/-! ## Tokens one by one -/

/-- A line that stands before or behind a document. -/
def readMarker? (t : Token) : Option Reading := do
  let r ← (r.closeBeyond none).dropCandidate?
  return { r.emit t with cursor := Cursor.advance 3 r.cursor, isKeyAllowed := false }

/-- An opening bracket. -/
def readOpening? (t : Token) : Option Reading := do
  let r ← r.saveCandidate?
  return { r.emit t with
    cursor := r.cursor.next
    candidate := none
    outer := r.candidate :: r.outer
    isKeyAllowed := true }

/-- A closing bracket. -/
def readClosing? (t : Token) : Option Reading := do
  let r ← r.dropCandidate?
  return { r.emit t with
    cursor := r.cursor.next
    candidate := r.outer.head?.join
    outer := r.outer.tail
    isKeyAllowed := false }

/-- A comma. -/
def readSeparator? : Option Reading := do
  let r ← r.dropCandidate?
  return { r.emit .separator with cursor := r.cursor.next, isKeyAllowed := true }

/-- The dash of an item. -/
def readItem? : Option Reading := do
  if !r.isInFlow && !r.isKeyAllowed then none
  let r ← (r.openAt r.cursor.column .openList).dropCandidate?
  return { r.emit .item with cursor := r.cursor.next, isKeyAllowed := true }

/-- The question mark of a key. -/
def readKey? : Option Reading := do
  if !r.isInFlow && !r.isKeyAllowed then none
  let r ← (r.openAt r.cursor.column .openMap).dropCandidate?
  return { r.emit .key with cursor := r.cursor.next, isKeyAllowed := !r.isInFlow }

/-- The colon of a value. If there is a candidate, it is the key. -/
def readValue? : Option Reading :=
  match r.candidate with
  | some k =>
      let isNew := r.opensAt k.column
      let r := { r with
        tokens := r.tokens.setIfInBounds k.slot (if isNew then [.openMap, .key] else [.key])
        indents := if isNew then k.column :: r.indents else r.indents
        candidate := none
        isKeyAllowed := false }
      some { r.emit .value with cursor := r.cursor.next }
  | none =>
      if !r.isInFlow && !r.isKeyAllowed then none
      else
        let r := r.openAt r.cursor.column .openMap
        some { r.emit .value with cursor := r.cursor.next, isKeyAllowed := !r.isInFlow }

/-- A text in the form of a block. -/
def readBlock? (isLiteral : Bool) : Option Reading := do
  let r ← r.dropCandidate?
  let (text, cursor) ← block? isLiteral r.level r.cursor.next
  return { r.emit (.scalar { isPlain := false, text := String.ofList text }) with
    cursor, isKeyAllowed := true }

/-- A text between quotes. -/
def readQuoted? (quote : Char) : Option Reading := do
  let r ← r.saveCandidate?
  let (text, cursor) ← quoted? quote (r.cursor.rest.length + 1) r.cursor.next
  return { r.emit (.scalar { isPlain := false, text := String.ofList text }) with
    cursor, isKeyAllowed := false }

/-- A text without quotes. -/
def readPlain? : Option Reading := do
  let r ← r.saveCandidate?
  let (text, isBroken, cursor) ←
    plain? r.isInFlow r.level (r.cursor.rest.length + 1) r.cursor
  return { r.emit (.scalar { isPlain := true, text := String.ofList text }) with
    cursor, isKeyAllowed := isBroken }

/-- The characters that cannot begin a text without quotes. -/
def indicators : List Char :=
  ['-', '?', ':', ',', '[', ']', '\x7b', '\x7d', '#', '&', '*', '!', '|', '>', '\'', '"', '%',
    '@', '\x60']

/-- Can a text without quotes begin with a character, given what follows? -/
def isPlainStart (inFlow : Bool) (c : Char) (cs : List Char) : Bool :=
  !(isGap c || indicators.contains c) || (c == '-' && !cs.head?.any isBlank) ||
    (!inFlow && (c == '?' || c == ':') && !startsWithGap cs)

/-- The token that begins with the given character. -/
def readAt? (c : Char) (cs : List Char) : Option Reading :=
  let isApart := startsWithGap cs
  if r.cursor.column == 0 && c == '%' then none
  else if r.cursor.isAtMarker '-' then r.readMarker? .documentStart
  else if r.cursor.isAtMarker '.' then r.readMarker? .documentEnd
  else if c == '[' then r.readOpening? .openFlowList
  else if c == '\x7b' then r.readOpening? .openFlowMap
  else if c == ']' then r.readClosing? .closeFlowList
  else if c == '\x7d' then r.readClosing? .closeFlowMap
  else if c == ',' then r.readSeparator?
  else if c == '-' && isApart then r.readItem?
  else if c == '?' && (r.isInFlow || isApart) then r.readKey?
  else if c == ':' && (r.isInFlow || isApart) then r.readValue?
  else if c == '|' && !r.isInFlow then r.readBlock? true
  else if c == '>' && !r.isInFlow then r.readBlock? false
  else if c == '\'' || c == '"' then r.readQuoted? c
  else if isPlainStart r.isInFlow c cs then r.readPlain?
  else none

/-- All tokens from the cursor on. Every round consumes a character. -/
def finish? : Nat → Reading → Option (List Token)
  | 0, _ => none
  | fuel + 1, r => do
      let r := skipGaps (r.cursor.rest.length + 1) r
      let r ← r.dropStale?
      let r := r.closeBeyond (some r.cursor.column)
      match r.cursor.rest with
      | [] => return (← (r.closeBeyond none).dropCandidate?).tokens.toList.flatten
      | c :: cs => finish? fuel (← r.readAt? c cs)

end Reading

/-- The tokens of a text. -/
def ofText? (text : String) : Option (List Token) := do
  let cs ← characters? text
  (Reading.start cs).finish? (cs.length + 1)

end Token

end PlanOrbits.Yaml
