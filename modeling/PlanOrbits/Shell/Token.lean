import PlanOrbits.Shell.Command
import PlanOrbits.Text.Digits

/-!
# Tokens of scripts

A script as a list of words and operators. The body of a here-text begins on the
line below; its place among the tokens is kept free until that line is reached.

Where a script is not well formed the list ends, and says so: what stands on the
lines before is run all the same.
-/

namespace PlanOrbits.Shell

/-- What separates commands. -/
inductive Operator where
  | newline
  | semicolon
  | doubleSemicolon
  | ampersand
  | doubleAmpersand
  | bar
  | doubleBar
  | openParen
  | closeParen
  deriving DecidableEq, Repr

/-- What is done with the word behind an arrow. -/
inductive Arrow where
  | read
  | write (writing : Writing)
  | copy
  deriving DecidableEq, Repr

/-- A part of a script. -/
inductive Token where
  | word (w : Word)
  | operator (o : Operator)
  | redirect (stream : Nat) (arrow : Arrow)
  | hereText (stream : Nat) (body : Word)
  deriving DecidableEq, Repr

/-! ## Character classes -/

def isBlank (c : Char) : Bool := c == ' ' || c == '\t'

/-- The characters that end a word. -/
def isMeta (c : Char) : Bool :=
  isBlank c || c == '\n' || c == ';' || c == '&' || c == '|' || c == '<' || c == '>' ||
    c == '(' || c == ')'

def isNameStart (c : Char) : Bool := c.isAlpha || c == '_'

def isNameChar (c : Char) : Bool := isNameStart c || Text.isDigit c

/-- The characters that name a parameter on their own. -/
def isSpecialParameter (c : Char) : Bool :=
  Text.isDigit c || c == '?' || c == '#' || c == '@' || c == '*' || c == '$' || c == '!' ||
    c == '-'

/-! ## Expansions -/

/-- What a text may be enclosed in. -/
inductive Enclosure where
  /-- Double quotes. -/
  | quotes
  | backQuotes
  /-- The braces of an expansion, which may stand between double quotes. -/
  | braces (isQuoted : Bool)
  /-- The parentheses of a script. In it so many choices are open, whose patterns end
  with a parenthesis, too; `isStart` tells whether a command can begin. -/
  | script (choices : Nat) (isStart : Bool)
  deriving DecidableEq, Repr

namespace Enclosure

/-- The character that closes it. -/
def close : Enclosure → Char
  | quotes => '"'
  | backQuotes => '\x60'
  | braces _ => '\x7d'
  | script .. => ')'

/-- Do single quotes protect what is between them? -/
def hasSingleQuotes : Enclosure → Bool
  | braces isQuoted => !isQuoted
  | script .. => true
  | _ => false

/-- Is everything quoted in it? -/
def isQuoted : Enclosure → Bool
  | quotes | braces true => true
  | _ => false

/-- Can a command begin here? -/
def isAtStart : Enclosure → Bool
  | script _ isStart => isStart
  | _ => false

/-- The words behind which a command begins. -/
def leadingWords : List String :=
  ["if", "then", "elif", "else", "while", "until", "do", "!", "\x7b"]

/-- The enclosure behind one character. -/
def next (c : Char) : Enclosure → Enclosure
  | script choices isStart =>
      script choices
        ([';', '&', '|', '\n', ')'].contains c || isBlank c && isStart)
  | e => e

/-- The enclosure behind a word that structures a script. -/
def nextWord (word : String) : Enclosure → Enclosure
  | script choices _ =>
      if word == "case" then script (choices + 1) false
      else if word == "esac" then script (choices - 1) false
      else script choices true
  | e => e

/-- The word that structures a script and begins here, if there is one. -/
def word? (cs : List Char) : Enclosure → Option String
  | script choices true =>
      let word := String.ofList (cs.takeWhile fun c => !isMeta c)
      if word == "case" || leadingWords.contains word || (word == "esac" && choices != 0) then
        some word
      else none
  | _ => none

/-- Does a parenthesis close a pattern, and not the script? -/
def isPatternEnd (c : Char) : Enclosure → Bool
  | script choices _ => c == ')' && choices != 0
  | _ => false

/-- The enclosure that opens at the front of a text inside of this one, and how many
characters open it. -/
def inner? (cs : List Char) (e : Enclosure) : Option (Enclosure × Nat) :=
  match e, cs with
  | backQuotes, _ => none
  | _, '"' :: _ => some (quotes, 1)
  | _, '\x60' :: _ => some (backQuotes, 1)
  | _, '$' :: '(' :: _ => some (script 0 true, 2)
  | e, '$' :: '\x7b' :: _ => some (braces e.isQuoted, 2)
  | script .., '(' :: _ => some (script 0 true, 1)
  | _, _ => none

/-- Cut a text at the character that closes an enclosure around it. -/
def cut? : Nat → Enclosure → List Char → Option (List Char × List Char)
  | 0, _, _ => none
  | _, _, [] => none
  | fuel + 1, e, c :: cs =>
      let go := fun (front : List Char) (e : Enclosure) (rest : List Char) =>
        (cut? fuel e rest).map fun (a, b) => (front ++ a, b)
      if e.isPatternEnd c then go [c] (e.next c) cs
      else if c == e.close then some ([], cs)
      else if c == '\\' then go (c :: cs.take 1) (e.next c) (cs.drop 1)
      else if c == '\'' && e.hasSingleQuotes then
        let quotation := cs.takeWhile (· != c)
        go (c :: quotation ++ [c]) (e.next c) (cs.drop (quotation.length + 1))
      else if c == '#' && e.isAtStart then
        let comment := cs.takeWhile (· != '\n')
        go (c :: comment) e (cs.drop comment.length)
      else
        match e.inner? (c :: cs), e.word? (c :: cs) with
        | some (inner, n), _ => do
            let (a, rest) ← cut? fuel inner ((c :: cs).drop n)
            go ((c :: cs).take n ++ a ++ [inner.close]) (e.next inner.close) rest
        | none, some word =>
            go word.toList (e.nextWord word) ((c :: cs).drop word.length)
        | none, none => go [c] (e.next c) cs

/-- Cut a text behind what encloses it. -/
def cutAll? (e : Enclosure) (cs : List Char) : Option (List Char × List Char) :=
  e.cut? (cs.length + 1) cs

end Enclosure

/-- Cut a text at the back quote that closes it. A backslash protects some
characters, and is dropped there: also quotes, if the text is quoted itself. -/
def cutBackQuote? (isQuoted : Bool) : List Char → Option (List Char × List Char)
  | [] => none
  | '\x60' :: cs => some ([], cs)
  | '\\' :: c :: cs =>
      (cutBackQuote? isQuoted cs).map fun (a, b) =>
        if c == '\n' then (a, b)
        else if ['\x60', '\\', '$'].contains c || (isQuoted && c == '"') then (c :: a, b)
        else ('\\' :: c :: a, b)
  | c :: cs => (cutBackQuote? isQuoted cs).map fun (a, b) => (c :: a, b)

/-- The name of a parameter at the front of a text. -/
def parameterName (cs : List Char) : List Char :=
  match cs with
  | [] => []
  | c :: _ =>
      if isNameStart c then cs.takeWhile isNameChar
      else if Text.isDigit c then cs.takeWhile Text.isDigit
      else if isSpecialParameter c then [c]
      else []

/-- The adjustment behind the name of a parameter, and its argument. -/
def readAdjustment? : List Char → Option (Adjustment × Bool × List Char)
  | ':' :: '-' :: cs => some (.orElse, true, cs)
  | ':' :: '=' :: cs => some (.orAssign, true, cs)
  | ':' :: '+' :: cs => some (.ifThere, true, cs)
  | ':' :: '?' :: cs => some (.orFail, true, cs)
  | '-' :: cs => some (.orElse, false, cs)
  | '=' :: cs => some (.orAssign, false, cs)
  | '+' :: cs => some (.ifThere, false, cs)
  | '?' :: cs => some (.orFail, false, cs)
  | '#' :: '#' :: cs => some (.dropFront true, false, cs)
  | '#' :: cs => some (.dropFront false, false, cs)
  | '%' :: '%' :: cs => some (.dropBack true, false, cs)
  | '%' :: cs => some (.dropBack false, false, cs)
  | _ => none

/-- The expansion inside of braces. -/
def readBraces? (isQuoted : Bool) (cs : List Char) : Option Piece :=
  let name := parameterName cs
  match cs.drop name.length with
  | [] => if name.isEmpty then none else some (.parameter name isQuoted)
  | rest =>
      if name == ['#'] && parameterName rest == rest then
        some (.adjusted rest .count false [] isQuoted)
      else if name.isEmpty then none
      else
        (readAdjustment? rest).map fun (adjustment, emptyIsNone, argument) =>
          .adjusted name adjustment emptyIsNone argument isQuoted

/-- The expansion behind a dollar sign, if there is one. Fails where an expansion
is of a kind that is not known. -/
def readDollar? (isQuoted : Bool) (cs : List Char) : Option (Piece × List Char) :=
  match cs with
  | '(' :: rest => do
      let (inside, rest) ← (Enclosure.script 0 true).cutAll? rest
      if inside.head? != some '(' then return (.substitution inside isQuoted, rest)
      else if inside.getLast? == some ')' then return (.arithmetic inside.tail.dropLast, rest)
      else none
  | '\x7b' :: rest => do
      let (inside, rest) ← (Enclosure.braces isQuoted).cutAll? rest
      return (← readBraces? isQuoted inside, rest)
  | c :: rest =>
      if isNameStart c then
        some (.parameter (cs.takeWhile isNameChar) isQuoted, cs.dropWhile isNameChar)
      else if isSpecialParameter c then some (.parameter [c] isQuoted, rest)
      else some (.text ['$'] isQuoted, cs)
  | [] => some (.text ['$'] isQuoted, cs)

/-! ## Words -/

/-- The kinds of texts in which only expansions count. -/
inductive QuotedForm where
  /-- A text up to the closing quote. -/
  | quotation
  | hereText
  /-- The argument of an expansion that is quoted as a whole. Quotes in it do not
  count. -/
  | argument
  deriving DecidableEq, Repr

/-- Does a backslash protect a character, and vanish? -/
def QuotedForm.protects (f : QuotedForm) (c : Char) : Bool :=
  c == '$' || c == '\x60' || c == '\\' || (c == '"' && f != .hereText) ||
    (c == '\x7d' && f == .argument)

/-- The pieces of a text in which only expansions count. -/
def readQuoted? (form : QuotedForm) : Nat → List Char → Option (Word × List Char)
  | 0, _ => none
  | fuel + 1, cs =>
      match cs with
      | [] => if form == .quotation then none else some ([], [])
      | c :: rest =>
          if c == '"' && form == .quotation then some ([], rest)
          else if c == '"' && form == .argument then readQuoted? form fuel rest
          else if c == '$' then do
            let (piece, rest) ← readDollar? true rest
            let (w, rest) ← readQuoted? form fuel rest
            return (piece :: w, rest)
          else if c == '\x60' then do
            let (script, rest) ← cutBackQuote? true rest
            let (w, rest) ← readQuoted? form fuel rest
            return (.substitution script true :: w, rest)
          else
            match c, rest with
            | '\\', '\n' :: rest => readQuoted? form fuel rest
            | '\\', d :: ds =>
                if form.protects d then do
                  let (w, rest) ← readQuoted? form fuel ds
                  return (w.addChar d true, rest)
                else do
                  let (w, rest) ← readQuoted? form fuel rest
                  return (w.addChar c true, rest)
            | _, _ => do
                let (w, rest) ← readQuoted? form fuel rest
                return (w.addChar c true, rest)

/-- A whole text in which only expansions count as a word. -/
def quotedWord? (form : QuotedForm) (cs : List Char) : Option Word :=
  (readQuoted? form (cs.length + 1) cs).map Prod.fst

/-- The pieces between double quotes as a part of a word. They make a field even
where they are empty, unless they are nothing but the list of all parameters. -/
def Word.quotation (w : Word) : Word :=
  if w == [.parameter ['@'] true] then w else .text [] true :: w

/-- A word, which ends before a character of the class `isEnd`. -/
def readWordTo? (isEnd : Char → Bool) : Nat → List Char → Option (Word × List Char)
  | 0, _ => none
  | fuel + 1, cs =>
      match cs with
      | [] => some ([], [])
      | c :: rest =>
          if isEnd c then some ([], cs)
          else if c == '\'' then do
            let quotation := rest.takeWhile (· != '\'')
            match rest.drop quotation.length with
            | [] => none
            | _ :: rest =>
                let (w, rest) ← readWordTo? isEnd fuel rest
                return (.text quotation true :: w, rest)
          else if c == '"' then do
            let (quotation, rest) ← readQuoted? .quotation (rest.length + 1) rest
            let (w, rest) ← readWordTo? isEnd fuel rest
            return (Word.quotation quotation ++ w, rest)
          else if c == '$' then do
            let (piece, rest) ← readDollar? false rest
            let (w, rest) ← readWordTo? isEnd fuel rest
            return (piece :: w, rest)
          else if c == '\x60' then do
            let (script, rest) ← cutBackQuote? false rest
            let (w, rest) ← readWordTo? isEnd fuel rest
            return (.substitution script false :: w, rest)
          else
            match c, rest with
            | '\\', '\n' :: rest => readWordTo? isEnd fuel rest
            | '\\', d :: rest => do
                let (w, rest) ← readWordTo? isEnd fuel rest
                return (w.addChar d true, rest)
            | _, _ => do
                let (w, rest) ← readWordTo? isEnd fuel rest
                return (w.addChar c false, rest)

/-- A word of a script. -/
def readWord? (cs : List Char) : Option (Word × List Char) :=
  readWordTo? isMeta (cs.length + 1) cs

/-- A whole text as a word. -/
def wordOfText? (cs : List Char) : Option Word :=
  (readWordTo? (fun _ => false) (cs.length + 1) cs).map Prod.fst

/-! ## Here-texts -/

/-- A here-text whose body is still to come. -/
structure Pending where
  slot : Nat
  stream : Nat
  delimiter : List Char
  /-- Are tabs at the beginning of lines dropped? -/
  dropsTabs : Bool
  /-- Does the body stand for itself, without expansions? -/
  isLiteral : Bool

/-- The lines up to the delimiter, and what is behind them. -/
def cutBody (p : Pending) : Nat → List Char → List Char × List Char
  | 0, cs => ([], cs)
  | fuel + 1, cs =>
      if cs.isEmpty then ([], [])
      else
        let given := cs.takeWhile (· != '\n')
        let line := if p.dropsTabs then given.dropWhile (· == '\t') else given
        let behind := cs.drop given.length
        if line == p.delimiter then ([], behind.drop 1)
        else
          let (body, rest) := cutBody p fuel (behind.drop 1)
          (line ++ behind.take 1 ++ body, rest)

/-- The body of a here-text as a word. -/
def bodyWord? (p : Pending) (body : List Char) : Option Word :=
  if p.isLiteral then some [.text body true]
  else quotedWord? .hereText body

/-! ## Scripts -/

namespace Token

/-- The state in the middle of a script. -/
structure Reading where
  rest : List Char
  tokens : Array Token
  pending : List Pending

namespace Reading

variable (r : Reading)

/-- The state behind a token. -/
def emit (t : Token) (rest : List Char) : Reading := { r with rest, tokens := r.tokens.push t }

/-- Fill the places of the here-texts whose bodies begin here. -/
def fillBodies? (r : Reading) : List Pending → Option Reading
  | [] => some { r with pending := [] }
  | p :: ps => do
      let (body, rest) := cutBody p (r.rest.length + 1) r.rest
      let w ← bodyWord? p body
      fillBodies? { r with rest, tokens := r.tokens.setIfInBounds p.slot (.hereText p.stream w) } ps

/-- The arrow of a here-text, up to its delimiter. -/
def readHereText? (stream : Nat) (dropsTabs : Bool) (cs : List Char) : Option Reading := do
  let cs := cs.dropWhile isBlank
  let (w, rest) ← readWord? cs
  let (delimiter, isLiteral) ← w.constant?
  return { r.emit (.hereText stream []) rest with
    pending := r.pending ++ [{ slot := r.tokens.size, stream, delimiter, dropsTabs, isLiteral }] }

/-- An arrow, behind the number of the stream if there is one. -/
def readArrow? (stream : Option Nat) (cs : List Char) : Option Reading :=
  match cs with
  | '<' :: '<' :: '-' :: rest => r.readHereText? (stream.getD 0) true rest
  | '<' :: '<' :: rest => r.readHereText? (stream.getD 0) false rest
  | '<' :: '>' :: rest =>
      let arrow := if stream.getD 0 = 0 then Arrow.read else .write .overwrite
      some (r.emit (.redirect (stream.getD 0) arrow) rest)
  | '<' :: '&' :: rest => some (r.emit (.redirect (stream.getD 0) .copy) rest)
  | '<' :: rest => some (r.emit (.redirect (stream.getD 0) .read) rest)
  | '>' :: '>' :: rest => some (r.emit (.redirect (stream.getD 1) (.write .append)) rest)
  | '>' :: '&' :: rest => some (r.emit (.redirect (stream.getD 1) .copy) rest)
  | '>' :: '|' :: rest => some (r.emit (.redirect (stream.getD 1) (.write .overwrite)) rest)
  | '>' :: rest => some (r.emit (.redirect (stream.getD 1) (.write .replace)) rest)
  | _ => none

/-- The next token. -/
def step? : Option Reading :=
  match r.rest with
  | [] => some r
  | '\n' :: rest => (r.emit (.operator .newline) rest).fillBodies? r.pending
  | '\\' :: '\n' :: rest => some { r with rest }
  | ';' :: ';' :: rest => some (r.emit (.operator .doubleSemicolon) rest)
  | ';' :: rest => some (r.emit (.operator .semicolon) rest)
  | '&' :: '&' :: rest => some (r.emit (.operator .doubleAmpersand) rest)
  | '&' :: rest => some (r.emit (.operator .ampersand) rest)
  | '|' :: '|' :: rest => some (r.emit (.operator .doubleBar) rest)
  | '|' :: rest => some (r.emit (.operator .bar) rest)
  | '(' :: rest => some (r.emit (.operator .openParen) rest)
  | ')' :: rest => some (r.emit (.operator .closeParen) rest)
  | c :: rest =>
      if isBlank c then some { r with rest := rest.dropWhile isBlank }
      else if c == '#' then some { r with rest := rest.dropWhile (· != '\n') }
      else
        let isArrow := fun (d : Char) => d == '<' || d == '>'
        if isArrow c then r.readArrow? none r.rest
        else if Text.isDigit c && rest.head?.any isArrow then r.readArrow? (Text.digit? c) rest
        else do
          let (w, rest) ← readWord? r.rest
          return r.emit (.word w) rest

/-- The tokens up to the end or the first fault, and whether the end was
reached. Every round consumes a character. -/
def finish : Nat → Reading → Array Token × Bool
  | 0, r => (r.tokens, false)
  | fuel + 1, r =>
      if r.rest.isEmpty then (r.tokens, true)
      else
        match r.step? with
        | some r => finish fuel r
        | none => (r.tokens, false)

end Reading

/-- The tokens of a script up to its end or its first fault, and whether the end
was reached. -/
def ofScript (cs : List Char) : List Token × Bool :=
  let (tokens, isComplete) :=
    Reading.finish (cs.length + 1) { rest := cs, tokens := #[], pending := [] }
  (tokens.toList, isComplete)

end Token

end PlanOrbits.Shell
