import PlanOrbits.Shell.CharSet
import PlanOrbits.Shell.Edit.Command

/-!
# Reading editing scripts

A script as it is written becomes a list of commands. Commands stand on lines of
their own or behind semicolons. The readers take what is left of the script, and
return what is left behind them; they run on fuel where they repeat.
-/

namespace PlanOrbits.Shell.Edit

/-! ## Escapes -/

/-- A number behind the letter for its base, as a character, and what is behind it.
Without digits the letter stands for itself. -/
def readCode (letter : Char) (base digits : Nat) (cs : List Char) : Char × List Char :=
  let value := fun (c : Char) => (Text.hexDigit? c).filter (· < base)
  let front := (cs.take digits).takeWhile fun c => (value c).isSome
  if front.isEmpty then (letter, cs)
  else (charOfCode ((front.filterMap value).foldl (base * · + ·) 0), cs.drop front.length)

/-- The control character for a character. -/
def controlOf (c : Char) : Char := Char.ofNat (c.toUpper.toNat ^^^ 64)

/-- The character that an escape stands for, if its letter begins one, and what is
behind it. -/
def readEscape? : List Char → Option (Char × List Char)
  | [] => none
  | c :: cs =>
      match c, cs with
      | 'd', _ => some (readCode c 10 3 cs)
      | 'o', _ => some (readCode c 8 3 cs)
      | 'x', _ => some (readCode c 16 2 cs)
      | 'c', '\\' :: '\\' :: rest => some (controlOf '\\', rest)
      | 'c', d :: rest => some (controlOf d, rest)
      | _, _ =>
          if ['a', 'f', 'n', 'r', 't', 'v'].contains c then
            (control? c).map fun control => (control, cs)
          else none

/-- Replace escapes by the characters that they stand for; other backslashes stay. -/
def resolveEscapes : Nat → List Char → List Char
  | 0, cs => cs
  | fuel + 1, '\\' :: cs =>
      match readEscape? cs, cs with
      | some (c, rest), _ => c :: resolveEscapes fuel rest
      | none, c :: rest => '\\' :: c :: resolveEscapes fuel rest
      | none, [] => ['\\']
  | fuel + 1, c :: cs => c :: resolveEscapes fuel cs
  | _, [] => []

/-! ## Patterns and replacements -/

/-- The rest of a set of characters up to the bracket that closes it, and what is behind
that. A class in a set has brackets of its own. -/
def readSetRest? : Nat → List Char → Option (List Char × List Char)
  | 0, _ | _, [] => none
  | _, ']' :: cs => some ([']'], cs)
  | fuel + 1, '[' :: mark :: cs =>
      if [':', '.', '='].contains mark then
        match Text.cutAround? [mark, ']'] cs with
        | some (name, rest) =>
            (readSetRest? fuel rest).map fun (a, b) =>
              ('[' :: mark :: name ++ [mark, ']'] ++ a, b)
        | none => none
      else (readSetRest? fuel (mark :: cs)).map fun (a, b) => ('[' :: a, b)
  | fuel + 1, c :: cs =>
      if c == '\n' then none else (readSetRest? fuel cs).map fun (a, b) => (c :: a, b)

/-- A set of characters behind its first bracket, and what is behind it. A bracket at the
beginning of a set is a member of it. -/
def readSet? (cs : List Char) : Option (List Char × List Char) :=
  let (head, cs) :=
    match cs with
    | '^' :: ']' :: rest => (['^', ']'], rest)
    | '^' :: rest => (['^'], rest)
    | ']' :: rest => ([']'], rest)
    | rest => ([], rest)
  (readSetRest? (cs.length + 1) cs).map fun (a, b) => (head ++ a, b)

/-- A text up to a delimiter that is not protected, and what is behind it. A backslash
protects the delimiter, and is dropped there; it also protects a line feed, which can
otherwise not be in the text. In a pattern, a delimiter in a set does not count. -/
def readDelimited? (delimiter : Char) (isPattern : Bool) :
    Nat → List Char → Option (List Char × List Char)
  | 0, _ | _, [] => none
  | fuel + 1, c :: cs =>
      let go := fun (front rest : List Char) =>
        (readDelimited? delimiter isPattern fuel rest).map fun (a, b) => (front ++ a, b)
      if c == delimiter then some ([], cs)
      else if c == '\n' then none
      else
        match c, cs with
        | '\\', d :: rest =>
            if isPattern && d == 'n' then go ['\n'] rest
            else if d == '\n' && isPattern then go ['\n'] rest
            else if d == delimiter && (isPattern || d != '&') then go [d] rest
            else go ['\\', d] rest
        | '[', _ =>
            if isPattern then
              match readSet? cs with
              | some (set, rest) => go ('[' :: set) rest
              | none => none
            else go [c] cs
        | _, _ => go [c] cs

/-- The pattern that a text spells; the empty text is the pattern used last. In texts of
several lines, each of them may have a beginning and an end. In the basic grammar nothing
is repeated twice in a row. -/
def regex? (isExtended ignoresCase isAcrossLines : Bool) (cs : List Char) : Option Regex :=
  let text := resolveEscapes cs.length cs
  if cs.isEmpty then some { pattern := none }
  else if !isExtended && (Pattern.signs? .basic text).any Sign.repeatsTwice then none
  else
    (Pattern.ofChars? (if isExtended then .strict else .basic) text).map fun p =>
      let p := if ignoresCase then p.ignoringCase else p
      { pattern := some (if isAcrossLines then p.acrossLines else p) }

/-- A part with one more character in front. -/
def addChar (c : Char) : List Part → List Part
  | .text cs :: parts => .text (c :: cs) :: parts
  | parts => .text [c] :: parts

/-- The parts of a replacement. -/
def readParts : Nat → List Char → List Part
  | 0, _ | _, [] => []
  | fuel + 1, '&' :: cs => .group 0 :: readParts fuel cs
  | fuel + 1, '\\' :: c :: cs =>
      match readEscape? (c :: cs) with
      | some (control, rest) => addChar control (readParts fuel rest)
      | none =>
          let rest := readParts fuel cs
          match c with
          | 'U' => .casing .upper :: rest
          | 'L' => .casing .lower :: rest
          | 'E' => .casing .keep :: rest
          | 'u' => .nextCasing .upper :: rest
          | 'l' => .nextCasing .lower :: rest
          | _ =>
              match Text.digit? c with
              | some n => .group n :: rest
              | none => addChar c rest
  | fuel + 1, c :: cs => addChar c (readParts fuel cs)

/-- The largest number of a group in a replacement. -/
def lastGroup (parts : List Part) : Nat :=
  parts.foldl (fun n part =>
    match part with
    | .group k => max n k
    | _ => n) 0

/-- The characters of a transliteration. -/
def readChars : Nat → List Char → List Char
  | 0, _ | _, [] => []
  | fuel + 1, '\\' :: c :: cs =>
      match readEscape? (c :: cs) with
      | some (control, rest) => control :: readChars fuel rest
      | none => c :: readChars fuel cs
  | fuel + 1, c :: cs => c :: readChars fuel cs

/-- The flags behind a substitution. -/
structure SubstitutionFlags where
  first : Option Nat
  isGlobal : Bool
  isPrinted : Bool
  isExecuted : Bool
  ignoresCase : Bool
  isAcrossLines : Bool
  sink : Option Sink

/-- Go over blanks. -/
def skipBlanks (cs : List Char) : List Char := cs.dropWhile fun c => c == ' ' || c == '\t'

/-- A number at the front of a text. -/
def readNumber? (cs : List Char) : Option (Nat × List Char) :=
  let digits := cs.takeWhile Text.isDigit
  (Text.digits? digits).map fun ds => (Text.number ds, cs.drop digits.length)

/-- The name of a file, which takes the rest of the line. -/
def readPath? (cs : List Char) : Option (List Char × List Char) :=
  let cs := skipBlanks cs
  let path := cs.takeWhile (· != '\n')
  if path.isEmpty then none else some (path, cs.drop path.length)

/-- Read the flags behind a substitution, none of them twice. -/
def readFlags? : Nat → SubstitutionFlags → List Char → Option (SubstitutionFlags × List Char)
  | 0, f, cs => some (f, cs)
  | _, f, [] => some (f, [])
  | fuel + 1, f, c :: cs =>
      match c with
      | 'g' => if f.isGlobal then none else readFlags? fuel { f with isGlobal := true } cs
      | 'p' => if f.isPrinted then none else readFlags? fuel { f with isPrinted := true } cs
      | 'i' | 'I' => readFlags? fuel { f with ignoresCase := true } cs
      | 'm' | 'M' => readFlags? fuel { f with isAcrossLines := true } cs
      | 'e' => readFlags? fuel { f with isExecuted := true } cs
      | 'w' => (readPath? cs).map fun (path, rest) => ({ f with sink := some (.ofPath path) }, rest)
      | _ =>
          match readNumber? (c :: cs) with
          | some (n, rest) =>
              if n = 0 || f.first.isSome then none
              else readFlags? fuel { f with first := some n } rest
          | none => some (f, c :: cs)

/-- A substitution behind its letter. -/
def readSubstitution? (isExtended : Bool) : List Char → Option (Operation × List Char)
  | [] => none
  | delimiter :: cs => do
      if delimiter == '\n' || delimiter == '\\' then none
      let (pattern, cs) ← readDelimited? delimiter true (cs.length + 1) cs
      let (replacement, cs) ← readDelimited? delimiter false (cs.length + 1) cs
      let (f, cs) ← readFlags? (cs.length + 1)
        { first := none, isGlobal := false, isPrinted := false, isExecuted := false
          ignoresCase := false, isAcrossLines := false, sink := none } cs
      let regex ← regex? isExtended f.ignoresCase f.isAcrossLines pattern
      let parts := readParts replacement.length replacement
      if regex.pattern.any (·.groupCount < lastGroup parts) then none
      return (.substitute {
        regex, parts
        first := f.first.getD 1
        isGlobal := f.isGlobal
        isExecuted := f.isExecuted
        isPrinted := f.isPrinted
        sink := f.sink }, cs)

/-- A transliteration behind its letter. -/
def readTransliteration? : List Char → Option (Operation × List Char)
  | [] => none
  | delimiter :: cs => do
      let (source, cs) ← readDelimited? delimiter false (cs.length + 1) cs
      let (images, cs) ← readDelimited? delimiter false (cs.length + 1) cs
      let source := readChars source.length source
      let images := readChars images.length images
      if source.length != images.length then none
      return (.transliterate (source.zip images), cs)

/-! ## Addresses -/

/-- The letters behind a pattern in an address: is its case ignored, and are there several
lines? -/
def readAddressFlags : Nat → (ignoresCase isAcrossLines : Bool) → List Char →
    Bool × Bool × List Char
  | 0, i, l, cs => (i, l, cs)
  | fuel + 1, i, l, cs =>
      match skipBlanks cs with
      | 'I' :: rest => readAddressFlags fuel true l rest
      | 'M' :: rest => readAddressFlags fuel i true rest
      | _ => (i, l, cs)

/-- An address at the front of a text, if there is one. -/
def readAddress? (isExtended : Bool) (cs : List Char) : Option (Option Address × List Char) := do
  let pattern := fun (delimiter : Char) (cs : List Char) => do
    let (pattern, cs) ← readDelimited? delimiter true (cs.length + 1) cs
    let (ignoresCase, isAcrossLines, cs) := readAddressFlags cs.length false false cs
    return (some (Address.occurs (← regex? isExtended ignoresCase isAcrossLines pattern)), cs)
  match cs with
  | '$' :: cs => return (some .last, cs)
  | '/' :: cs => pattern '/' cs
  | '\\' :: delimiter :: cs => pattern delimiter cs
  | cs =>
      match readNumber? cs with
      | none => return (none, cs)
      | some (n, rest) =>
          match skipBlanks rest with
          | '~' :: cs =>
              match readNumber? (skipBlanks cs) with
              | some (step, cs) => return (some (.step n step), cs)
              | none => return (some (.step n 0), cs)
          | _ => return (some (.line n), rest)

/-- The end of a range at the front of a text. -/
def readRangeEnd? (isExtended : Bool) (cs : List Char) : Option (RangeEnd × List Char) := do
  match cs with
  | '+' :: cs => do
      let (n, cs) ← readNumber? cs
      return (.after n, cs)
  | '~' :: cs => do
      let (n, cs) ← readNumber? cs
      return (.multiple n, cs)
  | cs =>
      match ← readAddress? isExtended cs with
      | (some a, cs) => return (.address a, cs)
      | (none, _) => none

/-- The guard of a command. -/
def readGuard? (isExtended : Bool) (cs : List Char) : Option (Guard × List Char) := do
  let (first, cs) ← readAddress? isExtended cs
  let cs := skipBlanks cs
  let (last, cs) ←
    match first, cs with
    | some _, ',' :: cs => do
        let (e, cs) ← readRangeEnd? isExtended (skipBlanks cs)
        pure (some e, skipBlanks cs)
    | _, cs => pure (none, cs)
  match cs with
  | '!' :: cs =>
      let cs := skipBlanks cs
      if cs.head? == some '!' then none else return ({ first, last, isNegated := true }, cs)
  | cs => return ({ first, last, isNegated := false }, cs)

/-! ## Commands -/

/-- The text of a command that writes lines: up to a line feed without a backslash in
front of it. -/
def readLines : Nat → List Char → List Char × List Char
  | 0, cs => ([], cs)
  | _, [] => ([], [])
  | _, '\n' :: cs => ([], cs)
  | _, ['\\'] => ([], [])
  | fuel + 1, '\\' :: c :: cs =>
      let (control, rest) := (readEscape? (c :: cs)).getD (c, cs)
      let (text, rest) := readLines fuel rest
      (control :: text, rest)
  | fuel + 1, c :: cs =>
      let (text, rest) := readLines fuel cs
      (c :: text, rest)

/-- The text behind the letter of a command that writes lines. It may begin behind a
backslash, and then on the next line; so blanks in front of it are kept. -/
def readText? (cs : List Char) : Option (List Char × List Char) :=
  let ended := fun (cs : List Char) =>
    let (text, rest) := readLines (cs.length + 1) cs
    some (text ++ ['\n'], rest)
  match skipBlanks cs with
  | [] => none
  | ['\\'] => some ([], [])
  | '\\' :: '\n' :: rest => ended rest
  | '\\' :: rest => ended rest
  | rest => ended rest

/-- The name of a label, and what is behind it. -/
def readLabel (cs : List Char) : List Char × List Char :=
  let cs := skipBlanks cs
  let name := cs.takeWhile fun c => c != '\n' && c != ';' && c != '\x7d' && c != ' ' && c != '\t'
  (name, cs.drop name.length)

/-- A command that is only a letter. -/
def ofLetter? : Char → Option Operation
  | 'd' => some .delete
  | 'D' => some .deleteFirst
  | 'p' => some .print
  | 'P' => some .printFirst
  | '=' => some .printNumber
  | 'F' => some .printName
  | 'n' => some .next
  | 'N' => some .appendNext
  | 'h' => some .hold
  | 'H' => some .holdBehind
  | 'g' => some .get
  | 'G' => some .getBehind
  | 'x' => some .exchange
  | 'z' => some .clear
  | _ => none

/-- A command whose targets are still names: the name of a label goes with a
branch. -/
structure Draft where
  command : Command
  target : List Char

/-- What a letter and its arguments mean. A line with a brace that is no command of
its own is the beginning of a block. -/
def readOperation? (isExtended : Bool) (c : Char) (cs : List Char) :
    Option (Operation × List Char × List Char) :=
  let plain := fun (o : Operation) (rest : List Char) => some (o, [], rest)
  let branch := fun (condition : Option Bool) =>
    let (name, rest) := readLabel cs
    some (.branch condition none, name, rest)
  let quit := fun (isPrinting : Bool) =>
    match readNumber? (skipBlanks cs) with
    | some (n, rest) => plain (.quit isPrinting n) rest
    | none => plain (.quit isPrinting 0) cs
  let texts := fun (make : List Char → Operation) =>
    (readText? cs).map fun (text, rest) => (make text, [], '\n' :: rest)
  let paths := fun (make : List Char → Operation) =>
    (readPath? cs).map fun (path, rest) => (make path, [], rest)
  match c with
  | '\x7b' => plain (.openBlock 0) cs
  | '\x7d' => plain .closeBlock cs
  | ':' =>
      let (name, rest) := readLabel cs
      if name.isEmpty then none else plain (.label name) rest
  | 's' => (readSubstitution? isExtended cs).map fun (o, rest) => (o, [], rest)
  | 'y' => (readTransliteration? cs).map fun (o, rest) => (o, [], rest)
  | 'a' => texts .append
  | 'i' => texts .insert
  | 'c' => texts .change
  | 'r' => paths .readFile
  | 'R' => paths .readLine
  | 'w' => paths (.writeFile ∘ .ofPath)
  | 'W' => paths (.writeFirst ∘ .ofPath)
  | 'e' =>
      let script := (skipBlanks cs).takeWhile (· != '\n')
      plain (.execute script) ((skipBlanks cs).drop script.length)
  | 'l' =>
      match readNumber? (skipBlanks cs) with
      | some (n, rest) => plain (.list (some n)) rest
      | none => plain (.list none) cs
  | 'v' => plain (.label []) ((skipBlanks cs).dropWhile fun c => c != '\n' && c != ';')
  | 'b' => branch none
  | 't' => branch (some true)
  | 'T' => branch (some false)
  | 'q' => quit true
  | 'Q' => quit false
  | c => (ofLetter? c).bind fun o => plain o cs

/-- Is here the end of a command? -/
def isAtEnd (cs : List Char) : Bool :=
  match skipBlanks cs with
  | [] => true
  | c :: _ => c == '\n' || c == ';' || c == '\x7d' || c == '#'

/-- Are these ends of what a guard admits? There is no line zero, but a range may begin in
front of the first line if it ends at a pattern. -/
def Guard.isPossible (g : Guard) : Bool :=
  match g.first, g.last with
  | some (.line 0), some (.address (.occurs _)) => true
  | some (.line 0), _ => false
  | _, _ => true

/-- May a command have a guard like this? Labels and ends of blocks have none, and the
editing ends at one line only. A file may be written in front of the first line. -/
def Operation.admits (g : Guard) : Operation → Bool
  | .label _ | .closeBlock => g.first.isNone
  | .quit .. => g.last.isNone && g.isPossible
  | .readFile _ => g.isPossible || g.last.isNone
  | _ => g.isPossible

/-- The commands of a script. -/
def readDrafts? (isExtended : Bool) : Nat → List Char → Option (List Draft)
  | 0, _ => none
  | fuel + 1, cs => do
      let cs := cs.dropWhile fun c => c == ' ' || c == '\t' || c == '\n' || c == ';'
      match cs with
      | [] => return []
      | '#' :: cs => readDrafts? isExtended fuel (cs.dropWhile (· != '\n'))
      | cs =>
          let (guard, cs) ← readGuard? isExtended cs
          match cs with
          | [] => none
          | c :: cs =>
              let (operation, target, cs) ← readOperation? isExtended c cs
              if !(c == '\x7b' || isAtEnd cs) || !operation.admits guard then none
              let draft : Draft := { command := { guard, operation }, target }
              return draft :: (← readDrafts? isExtended fuel cs)

/-- The place behind the brace that closes a block, where `depth` others are open. -/
def behindBlock? : Nat → List Draft → Nat → Option Nat
  | _, [], _ => none
  | depth, d :: ds, place =>
      match d.command.operation with
      | .openBlock _ => behindBlock? (depth + 1) ds (place + 1)
      | .closeBlock =>
          if depth = 0 then some (place + 1) else behindBlock? (depth - 1) ds (place + 1)
      | _ => behindBlock? depth ds (place + 1)

/-- The place of a label. -/
def placeOf? (name : List Char) : List Draft → Nat → Option Nat
  | [], _ => none
  | d :: ds, place =>
      match d.command.operation with
      | .label other => if other == name then some place else placeOf? name ds (place + 1)
      | _ => placeOf? name ds (place + 1)

/-- The commands with all places filled in. -/
def resolve? (all : List Draft) : List Draft → Nat → Option (List Command)
  | [], _ => some []
  | d :: ds, place => do
      let operation ←
        match d.command.operation with
        | .openBlock _ => (behindBlock? 0 ds (place + 1)).map .openBlock
        | .branch condition _ =>
            if d.target.isEmpty then some (.branch condition none)
            else (placeOf? d.target all 0).map fun target => .branch condition (some target)
        | o => some o
      return { d.command with operation } :: (← resolve? all ds (place + 1))

/-- Are all blocks closed, and only those? -/
def isBalanced : Nat → List Draft → Bool
  | depth, [] => depth == 0
  | depth, d :: ds =>
      match d.command.operation with
      | .openBlock _ => isBalanced (depth + 1) ds
      | .closeBlock => depth != 0 && isBalanced (depth - 1) ds
      | _ => isBalanced depth ds

/-- Why a script cannot be used. -/
inductive Fault where
  /-- It is not well formed. -/
  | malformed
  /-- A label is missing to which a command goes. -/
  | missingLabel
  deriving DecidableEq, Repr

/-- The patterns in an address. -/
def Address.regexes : Address → List Regex
  | .occurs r => [r]
  | _ => []

/-- The patterns in a command. -/
def Command.regexes (c : Command) : List Regex :=
  let behind :=
    match c.guard.last with
    | some (.address a) => a.regexes
    | _ => []
  let own :=
    match c.operation with
    | .substitute s => [s.regex]
    | _ => []
  c.guard.first.elim [] Address.regexes ++ behind ++ own

/-- Is there a pattern wherever one is used once more? -/
def hasPattern (commands : List Command) : Bool :=
  let all := commands.flatMap Command.regexes
  all.isEmpty || all.any (·.pattern.isSome)

/-- The commands of a script. -/
def ofScript (isExtended : Bool) (script : List Char) : Except Fault (List Command) := do
  match readDrafts? isExtended (script.length + 1) script with
  | none => .error .malformed
  | some drafts =>
      if !isBalanced 0 drafts then .error .malformed
      else
        match resolve? drafts drafts 0 with
        | some commands => if hasPattern commands then .ok commands else .error .malformed
        | none => .error .missingLabel

end PlanOrbits.Shell.Edit
