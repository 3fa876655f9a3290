import PlanOrbits.Shell.Token

/-!
# Patterns

The patterns by which lines are selected. A pattern is matched by derivatives:
what is left of it after one character is again a pattern, and a text matches if
what is left at its end matches the empty text.

A pattern is written in a basic or an extended form, which differ in the
characters that need a backslash. Parts in parentheses are groups: where a pattern
occurs, the text of each group can be asked for.
-/

namespace PlanOrbits.Shell

/-! ## Edges -/

/-- A place between two characters of a line. At the ends of the line one of them is
missing. -/
structure Place where
  before : Option Char
  behind : Option Char

namespace Place

variable (p : Place)

/-- The place between the front of a text and the rest of it, seen from the front. -/
def atEndOf (rest : List Char) : Place := { p with behind := rest.head?.or p.behind }

/-- The place between the front of a text and the rest of it, seen from the rest. -/
def atStartOf (front : List Char) : Place := { p with before := front.getLast?.or p.before }

end Place

/-- Does a character belong to a word? -/
def isWordChar (c : Char) : Bool := isNameChar c

/-- What a pattern may ask of a place. -/
inductive Edge where
  | lineStart
  | lineEnd
  /-- The beginning of the text, also if it has several lines. -/
  | textStart
  | textEnd
  /-- The beginning of the text, or a place behind a line feed. -/
  | innerStart
  /-- The end of the text, or a place in front of a line feed. -/
  | innerEnd
  /-- No word goes on from before this place. -/
  | noWordBefore
  /-- No word goes on behind this place. -/
  | noWordBehind
  | wordStart
  | wordEnd
  | wordBorder
  | noWordBorder
  deriving DecidableEq, Repr

/-- Is a place of the kind that is asked for? -/
def Edge.holdsAt (e : Edge) (p : Place) : Bool :=
  let isBefore := p.before.any isWordChar
  let isBehind := p.behind.any isWordChar
  match e with
  | lineStart | textStart => p.before.isNone
  | lineEnd | textEnd => p.behind.isNone
  | innerStart => p.before.all (· == '\n')
  | innerEnd => p.behind.all (· == '\n')
  | noWordBefore => !isBefore
  | noWordBehind => !isBehind
  | wordStart => !isBefore && isBehind
  | wordEnd => isBefore && !isBehind
  | wordBorder => isBefore != isBehind
  | noWordBorder => isBefore == isBehind

/-! ## Patterns -/

/-- A set of texts, each of which stands between two places of a line. -/
inductive Pattern where
  | never
  | empty
  /-- The empty text at places of one kind. -/
  | edge (e : Edge)
  /-- One character inside of one of the ranges, or outside of all of them. -/
  | one (ranges : List (Char × Char)) (isNegated : Bool)
  | either (a b : Pattern)
  | both (first second : Pattern)
  | many (p : Pattern)
  /-- A part whose text can be asked for by its number. -/
  | group (number : Nat) (p : Pattern)
  /-- The text of the part with a number once more. It matches nothing before it is
  known which text that is. -/
  | same (number : Nat) (ignoresCase : Bool)
  /-- One of the texts that match a pattern. -/
  | pinned (text : List Char) (p : Pattern)
  deriving DecidableEq, Repr

namespace Pattern

/-! ## Matching -/

/-- Is the character in one of the ranges? -/
def isInRanges (ranges : List (Char × Char)) (c : Char) : Bool :=
  ranges.any fun (low, high) => low ≤ c && c ≤ high

/-- Does the empty text match at a place? -/
def matchesEmpty (place : Place) : Pattern → Bool
  | never => false
  | empty => true
  | edge e => e.holdsAt place
  | one .. => false
  | either a b => a.matchesEmpty place || b.matchesEmpty place
  | both a b => a.matchesEmpty place && b.matchesEmpty place
  | many _ => true
  | group _ p => p.matchesEmpty place
  | same .. => false
  | pinned text p => text.isEmpty && p.matchesEmpty place

/-- One of two patterns. -/
def orElse (a b : Pattern) : Pattern :=
  if a = never ∨ a = b then b else if b = never then a else either a b

/-- Two patterns, one behind the other. -/
def andThen (a b : Pattern) : Pattern :=
  if a = never ∨ b = never then never else if a = empty then b else if b = empty then a
  else both a b

/-- One of the texts that match a pattern. -/
def only (text : List Char) (p : Pattern) : Pattern := if p = never then never else pinned text p

/-- Does one character match? -/
def matchesOne (ranges : List (Char × Char)) (isNegated : Bool) (c : Char) : Bool :=
  isInRanges ranges c != isNegated

/-- Every character. -/
def any : Pattern := one [] true

/-- One character. -/
def char (c : Char) : Pattern := one [(c, c)] false

/-- The characters as they are. -/
def ofText (cs : List Char) : Pattern := cs.foldr (fun c p => (char c).andThen p) empty

/-- What is left of a pattern after a character, in front of which there may be
another one. -/
def after (before : Option Char) (c : Char) : Pattern → Pattern
  | never | empty | edge _ | same .. => never
  | one ranges isNegated => if matchesOne ranges isNegated c then empty else never
  | either a b => (a.after before c).orElse (b.after before c)
  | both a b =>
      let first := (a.after before c).andThen b
      if a.matchesEmpty ⟨before, some c⟩ then first.orElse (b.after before c) else first
  | many p => (p.after before c).andThen (many p)
  | group _ p => p.after before c
  | pinned text p => if text.head? == some c then only text.tail (p.after before c) else never

/-- Does a text match that stands inside of a line? -/
def matchesIn (around : Place) (p : Pattern) : List Char → Bool
  | [] => p.matchesEmpty around
  | c :: cs => (p.after around.before c).matchesIn { around with before := some c } cs

/-- Does a text match as a whole line? -/
def matchesAll (p : Pattern) (cs : List Char) : Bool := p.matchesIn ⟨none, none⟩ cs

/-- A pattern, or nothing. -/
def optional (p : Pattern) : Pattern := empty.orElse p

/-- So many texts of a pattern, one behind the other. -/
def times (p : Pattern) : Nat → Pattern
  | 0 => empty
  | n + 1 => p.andThen (times p n)

/-- At most so many texts of a pattern. -/
def upTo (p : Pattern) : Nat → Pattern
  | 0 => empty
  | n + 1 => (p.andThen (upTo p n)).optional

/-! ## Searching

The rest of a line is searched; `before` is the character in front of it, if it is not
the whole line. -/

/-- Does the beginning of the rest match? -/
def matchesFront (before : Option Char) (p : Pattern) : List Char → Bool
  | [] => p.matchesEmpty ⟨before, none⟩
  | c :: cs =>
      p.matchesEmpty ⟨before, some c⟩ ||
        (p != never && (p.after before c).matchesFront (some c) cs)

/-- Does the pattern occur in the rest? -/
def occursFrom (before : Option Char) (p : Pattern) : List Char → Bool
  | [] => p.matchesFront before []
  | c :: cs => p.matchesFront before (c :: cs) || p.occursFrom (some c) cs

/-- Does the pattern occur in a line? -/
def occursIn (p : Pattern) (line : List Char) : Bool := p.occursFrom none line

/-- The length of the longest beginning of the rest that matches. -/
def longest? (before : Option Char) (p : Pattern) : List Char → Option Nat
  | [] => if p.matchesEmpty ⟨before, none⟩ then some 0 else none
  | c :: cs =>
      match if p = never then none else (p.after before c).longest? (some c) cs with
      | some n => some (n + 1)
      | none => if p.matchesEmpty ⟨before, some c⟩ then some 0 else none

/-- The length of the longest front of a text that matches, such that the rest of the
text matches another pattern. -/
def cut? (around : Place) (p q : Pattern) (least : Nat) (cs : List Char) : Option Nat :=
  let lengths := ((List.range (cs.length + 1)).drop least).reverse
  lengths.find? fun n =>
    p.matchesIn (around.atEndOf (cs.drop n)) (cs.take n) &&
      q.matchesIn (around.atStartOf (cs.take n)) (cs.drop n)

/-- The texts of the groups in repeated texts, given those of one text. -/
def groupsOfMany (p : Pattern) (groups : Place → List Char → List (Nat × List Char)) :
    Nat → Place → List Char → List (Nat × List Char)
  | 0, _, _ => []
  | fuel + 1, around, cs =>
      match cut? around p (many p) 1 cs with
      | some n =>
          groupsOfMany p groups fuel (around.atStartOf (cs.take n)) (cs.drop n) ++
            groups (around.atEndOf (cs.drop n)) (cs.take n)
      | none => []

/-- The texts of the groups in a text that matches. Of several ways to match, the
parts in front are as long as possible; of several texts of one group, the last
one is the first in the list. -/
def groups : Pattern → Place → List Char → List (Nat × List Char)
  | never, _, _ | empty, _, _ | edge _, _, _ | one .., _, _ | same .., _, _ => []
  | group n p, around, cs => (n, cs) :: groups p around cs
  | pinned _ p, around, cs => groups p around cs
  | either a b, around, cs =>
      if a.matchesIn around cs then groups a around cs else groups b around cs
  | both a b, around, cs =>
      match cut? around a b 0 cs with
      | some n =>
          groups b (around.atStartOf (cs.take n)) (cs.drop n) ++
            groups a (around.atEndOf (cs.drop n)) (cs.take n)
      | none => []
  | many p, around, cs => groupsOfMany p (groups p) (cs.length + 1) around cs

/-! ## Texts that are asked for again

A pattern that asks for the text of a group again is a choice between as many patterns
as there are texts for that group in the line. -/

/-- The ranges with the letters of the other case. -/
def bothCases (ranges : List (Char × Char)) : List (Char × Char) :=
  ranges.flatMap fun (low, high) =>
    let cut := fun (first last : Char) (map : Char → Char) =>
      let low := if low < first then first else low
      let high := if last < high then last else high
      if low ≤ high then [(map low, map high)] else []
    (low, high) :: (cut 'a' 'z' Char.toUpper ++ cut 'A' 'Z' Char.toLower)

/-- The pattern for texts in any case. -/
def ignoringCase : Pattern → Pattern
  | one ranges isNegated => one (bothCases ranges) isNegated
  | either a b => either a.ignoringCase b.ignoringCase
  | both a b => both a.ignoringCase b.ignoringCase
  | many p => many p.ignoringCase
  | group n p => group n p.ignoringCase
  | same n _ => same n true
  | p => p

/-- The pattern for texts of several lines, each of which has a beginning and an
end. -/
def acrossLines : Pattern → Pattern
  | edge .lineStart => edge .innerStart
  | edge .lineEnd => edge .innerEnd
  | either a b => either a.acrossLines b.acrossLines
  | both a b => both a.acrossLines b.acrossLines
  | many p => many p.acrossLines
  | group n p => group n p.acrossLines
  | p => p

/-- The largest number of a group. -/
def groupCount : Pattern → Nat
  | group n p => max n p.groupCount
  | either a b | both a b => max a.groupCount b.groupCount
  | many p | pinned _ p => p.groupCount
  | _ => 0

/-- Does a pattern ask for the text of a group again? -/
def asksFor (n : Nat) : Pattern → Bool
  | same k _ => k == n
  | either a b | both a b => a.asksFor n || b.asksFor n
  | many p | group _ p => p.asksFor n
  | _ => false

/-- The patterns of a group. -/
def insides (n : Nat) : Pattern → List Pattern
  | group k p => (if k = n then [p] else []) ++ p.insides n
  | either a b | both a b => a.insides n ++ b.insides n
  | many p | pinned _ p => p.insides n
  | _ => []

/-- The pattern in which a group has the given text. -/
def withGroup (n : Nat) (text : List Char) : Pattern → Pattern
  | group k p =>
      if k = n then group n (only text p) else group k (p.withGroup n text)
  | same k ignoresCase =>
      if k = n then (if ignoresCase then (ofText text).ignoringCase else ofText text)
      else same k ignoresCase
  | either a b => (a.withGroup n text).orElse (b.withGroup n text)
  | both a b => (a.withGroup n text).andThen (b.withGroup n text)
  | many p => many (p.withGroup n text)
  | p => p

/-- The lengths of the fronts of a text that match. -/
def frontLengths (before : Option Char) (p : Pattern) : List Char → List Nat
  | [] => if p.matchesEmpty ⟨before, none⟩ then [0] else []
  | c :: cs =>
      let here := if p.matchesEmpty ⟨before, some c⟩ then [0] else []
      if p = never then [] else here ++ ((p.after before c).frontLengths (some c) cs).map (· + 1)

/-- The texts in a line that match, in no order. -/
def textsIn (p : Pattern) (before : Option Char) : List Char → List (List Char)
  | [] => if p.matchesEmpty ⟨before, none⟩ then [[]] else []
  | c :: cs =>
      ((p.frontLengths before (c :: cs)).map fun n => (c :: cs).take n) ++ p.textsIn (some c) cs

/-- The pattern in which it is known what the text of a group is wherever it is asked
for, where one of the given texts is meant. -/
def resolveGroup (n : Nat) (texts : List (List Char)) : Pattern → Pattern
  | either a b => (a.resolveGroup n texts).orElse (b.resolveGroup n texts)
  | many p => many (p.resolveGroup n texts)
  | group k p => group k (p.resolveGroup n texts)
  | both a b =>
      if b.asksFor n && !(a.insides n).isEmpty then
        texts.foldr (fun text p => ((both a b).withGroup n text).orElse p) never
      else (a.resolveGroup n texts).andThen (b.resolveGroup n texts)
  | p => p

/-- The pattern for a line, in which it is known what the text of one group is. -/
def resolvedFor (line : List Char) (p : Pattern) (n : Nat) : Pattern :=
  if p.asksFor n then
    let texts := ((p.insides n).flatMap (·.textsIn none line)).eraseDups
    p.resolveGroup n (texts.mergeSort fun a b => b.length ≤ a.length)
  else p

/-- The pattern for a line, in which it is known what the texts of groups are. -/
def resolved (line : List Char) (p : Pattern) : Pattern :=
  [1, 2, 3, 4, 5, 6, 7, 8, 9].foldl (resolvedFor line) p

/-- A place where a pattern occurs in a line. -/
structure Occurrence where
  before : List Char
  text : List Char
  groups : List (Nat × List Char)
  rest : List Char

/-- The character in front of what follows an occurrence, where `before` is the one in
front of what was searched. -/
def Occurrence.last? (before : Option Char) (o : Occurrence) : Option Char :=
  (o.text.getLast?.or o.before.getLast?).or before

/-- The occurrence that begins here and is the longest. -/
def occurrenceHere? (before : Option Char) (p : Pattern) (cs : List Char) : Option Occurrence :=
  (p.longest? before cs).map fun n =>
    let text := cs.take n
    let rest := cs.drop n
    { before := [], text, groups := p.groups ⟨before, rest.head?⟩ text, rest }

/-- The first occurrence in the rest of a line. -/
def occurrence? (before : Option Char) (p : Pattern) : List Char → Option Occurrence
  | [] => p.occurrenceHere? before []
  | c :: cs =>
      match p.occurrenceHere? before (c :: cs) with
      | some o => some o
      | none => (p.occurrence? (some c) cs).map fun o => { o with before := c :: o.before }

end Pattern

/-! ## Written patterns -/

/-- How patterns are written. -/
inductive Dialect where
  /-- The signs for groups, choices and most repetitions have a backslash in front. -/
  | basic
  /-- They have none. What cannot be a sign where it stands is a character, or nothing. -/
  | extended
  /-- They have none. What cannot be a sign where it stands is a fault. -/
  | strict
  deriving DecidableEq, Repr

/-- A sign in a written pattern. -/
inductive Sign where
  | set (ranges : List (Char × Char)) (isNegated : Bool)
  | openGroup (number : Nat)
  | closeGroup
  | bar
  | star
  | plus
  | option
  /-- So many times, at least and at most. -/
  | interval (least : Nat) (most : Option Nat)
  | edge (e : Edge)
  /-- The text of a group once more. -/
  | same (number : Nat)
  deriving DecidableEq, Repr

namespace Sign

/-- One character. -/
def char (c : Char) : Sign := set [(c, c)] false

/-- The characters of the named classes. -/
def classRanges : String → List (Char × Char)
  | "alpha" => [('a', 'z'), ('A', 'Z')]
  | "digit" => [('0', '9')]
  | "alnum" => [('a', 'z'), ('A', 'Z'), ('0', '9')]
  | "upper" => [('A', 'Z')]
  | "lower" => [('a', 'z')]
  | "space" => [('\t', '\r'), (' ', ' ')]
  | "blank" => [('\t', '\t'), (' ', ' ')]
  | "punct" => [('!', '/'), (':', '@'), ('[', '\x60'), ('\x7b', '~')]
  | "print" => [(' ', '~')]
  | "graph" => [('!', '~')]
  | "cntrl" => [('\x00', '\x1f'), ('\x7f', '\x7f')]
  | "xdigit" => [('a', 'f'), ('A', 'F'), ('0', '9')]
  | _ => []

/-- The ranges of a named class, and what is behind it. -/
def readClass? (cs : List Char) : Option (List (Char × Char) × List Char) :=
  let name := cs.takeWhile (· != ':')
  match cs.drop name.length, classRanges (String.ofList name) with
  | _, [] => none
  | ':' :: ']' :: rest, ranges => some (ranges, rest)
  | _, _ => none

/-- The character with a name, which it is itself, between two marks. -/
def readNamed? (mark : Char) : List Char → Option (Char × List Char)
  | c :: other :: ']' :: rest => if other == mark then some (c, rest) else none
  | _ => none

/-- The ranges up to the closing bracket. -/
def readRanges? : Nat → (isFirst : Bool) → List Char → Option (List (Char × Char) × List Char)
  | 0, _, _ => none
  | fuel + 1, isFirst, cs =>
      match cs with
      | [] => none
      | ']' :: rest =>
          if isFirst then do
            let (ranges, rest) ← readRanges? fuel false rest
            return ((']', ']') :: ranges, rest)
          else some ([], rest)
      | '[' :: ':' :: rest => do
          let (named, rest) ← readClass? rest
          let (ranges, rest) ← readRanges? fuel false rest
          return (named ++ ranges, rest)
      | '[' :: '.' :: rest => do
          let (c, rest) ← readNamed? '.' rest
          let (ranges, rest) ← readRanges? fuel false rest
          return ((c, c) :: ranges, rest)
      | '[' :: '=' :: rest => do
          let (c, rest) ← readNamed? '=' rest
          let (ranges, rest) ← readRanges? fuel false rest
          return ((c, c) :: ranges, rest)
      | low :: '-' :: high :: rest =>
          if high == ']' then do
            let (ranges, rest) ← readRanges? fuel false ('-' :: high :: rest)
            return ((low, low) :: ranges, rest)
          else do
            if high < low then none
            let (ranges, rest) ← readRanges? fuel false rest
            return ((low, high) :: ranges, rest)
      | c :: rest => do
          let (ranges, rest) ← readRanges? fuel false rest
          return ((c, c) :: ranges, rest)

/-- The set behind an opening bracket. -/
def readSet? (cs : List Char) : Option (Sign × List Char) := do
  match cs with
  | '^' :: rest =>
      let (ranges, rest) ← readRanges? (cs.length + 1) true rest
      return (set ranges true, rest)
  | cs =>
      let (ranges, rest) ← readRanges? (cs.length + 1) true cs
      return (set ranges false, rest)

/-- The bounds in braces, and what is behind them. -/
def readInterval? (close : List Char) (cs : List Char) : Option (Sign × List Char) := do
  let low := cs.takeWhile Text.isDigit
  let behind := cs.drop low.length
  let least ←
    if low.isEmpty && behind.head? == some ',' then some 0 else (Text.digits? low).map Text.number
  let (most, behind) :=
    match behind with
    | ',' :: rest =>
        let high := rest.takeWhile Text.isDigit
        ((Text.digits? high).map Text.number, rest.drop high.length)
    | _ => (some least, behind)
  if close.isPrefixOf behind then some (interval least most, behind.drop close.length) else none

/-- The sign of a character that means something on its own in extended patterns,
and with a backslash in basic ones. -/
def ofOperator? : Char → Option Sign
  | '(' => some (openGroup 0)
  | ')' => some closeGroup
  | '|' => some bar
  | '+' => some plus
  | '?' => some option
  | _ => none

/-- What a character stands for behind a backslash, if it is not the character
itself: a set, or an edge. -/
def ofLetter? : Char → Option Sign
  | 'w' => some (set wordRanges false)
  | 'W' => some (set wordRanges true)
  | 's' => some (set (classRanges "space") false)
  | 'S' => some (set (classRanges "space") true)
  | '<' => some (edge .wordStart)
  | '>' => some (edge .wordEnd)
  | 'b' => some (edge .wordBorder)
  | 'B' => some (edge .noWordBorder)
  | '\x60' => some (edge .textStart)
  | '\'' => some (edge .textEnd)
  | c =>
      match Text.digit? c with
      | some n => if n = 0 then none else some (same n)
      | none => none
where
  /-- The characters of words. -/
  wordRanges : List (Char × Char) := ('_', '_') :: classRanges "alnum"

/-- Does a basic pattern, or a part of it, end here? -/
def isEndOfPart : List Char → Bool
  | [] => true
  | '\\' :: ')' :: _ => true
  | '\\' :: '|' :: _ => true
  | _ => false

/-- The first sign of an extended pattern. -/
def readExtended? (isStrict : Bool) : List Char → Option (Sign × List Char)
  | [] => none
  | '.' :: rest => some (set [] true, rest)
  | '*' :: rest => some (star, rest)
  | '^' :: rest => some (edge .lineStart, rest)
  | '$' :: rest => some (edge .lineEnd, rest)
  | '[' :: rest => readSet? rest
  | ['\\'] => if isStrict then none else some (char '\\', [])
  | '\\' :: c :: rest => some ((ofLetter? c).getD (char c), rest)
  | '\x7b' :: rest =>
      let interval? := readInterval? ['\x7d'] rest
      if isStrict then interval? else some (interval?.getD (char '\x7b', rest))
  | c :: rest => some ((ofOperator? c).getD (char c), rest)

/-- The first sign of a basic pattern. Some signs mean something only at the
beginning of a part, or only behind it. -/
def readBasic? (isFirst : Bool) : List Char → Option (Sign × List Char)
  | [] => none
  | '.' :: rest => some (set [] true, rest)
  | '*' :: rest => some (if isFirst then char '*' else star, rest)
  | '^' :: rest => some (if isFirst then edge .lineStart else char '^', rest)
  | '$' :: rest => some (if isEndOfPart rest then edge .lineEnd else char '$', rest)
  | '[' :: rest => readSet? rest
  | ['\\'] => none
  | '\\' :: '\x7b' :: rest => readInterval? ['\\', '\x7d'] rest
  | '\\' :: c :: rest => some (((ofOperator? c).or (ofLetter? c)).getD (char c), rest)
  | c :: rest => some (char c, rest)

/-- Does a part of a pattern begin behind a sign? -/
def opensPart : Sign → Bool
  | openGroup _ | bar | edge .lineStart => true
  | _ => false

/-- The signs of a written pattern. -/
def ofChars? (d : Dialect) : Nat → (isFirst : Bool) → List Char → Option (List Sign)
  | 0, _, _ => none
  | _, _, [] => some []
  | fuel + 1, isFirst, cs => do
      let (sign, rest) ←
        match d with
        | .basic => readBasic? isFirst cs
        | .extended => readExtended? false cs
        | .strict => readExtended? true cs
      return sign :: (← ofChars? d fuel (opensPart sign) rest)

/-- Give the groups their numbers, from left to right. -/
def number (next : Nat) : List Sign → List Sign
  | [] => []
  | openGroup _ :: signs => openGroup next :: number (next + 1) signs
  | sign :: signs => sign :: number next signs

/-- The character of a sign for a repetition. -/
def repetition? : Sign → Option Char
  | star => some '*'
  | plus => some '+'
  | option => some '?'
  | interval .. => some '\x7b'
  | _ => none

/-- A group that is open, or all of a pattern. -/
structure Level where
  /-- The number of the group; zero is all of the pattern. -/
  number : Nat
  /-- The groups that were at their ends where the choice began. -/
  before : List Nat
  /-- The groups that are at their ends in its other branches. -/
  others : List Nat

/-- The signs with their meaning where they stand: a repetition needs something in front of
it, an end of a group needs a beginning, and the text of a group can be asked for again
when the group is at its end, but not in another branch of a choice. `isFirst` tells that
nothing is there to be repeated; the groups that are open are given, and those that are at
their ends. -/
def settled? (d : Dialect) (isFirst : Bool) (level : Level) (opened : List Level)
    (closed : List Nat) : List Sign → Option (List Sign)
  | [] => some []
  | sign :: signs =>
      match sign with
      | openGroup number =>
          let inner : Level := { number, before := closed, others := [] }
          (settled? d true inner (level :: opened) closed signs).map (sign :: ·)
      | closeGroup =>
          match opened with
          | outer :: opened =>
              let closed := level.number :: (closed ++ level.others)
              (settled? d false outer opened closed signs).map (sign :: ·)
          | [] =>
              if d = .extended then
                (settled? d false level [] closed signs).map (char ')' :: ·)
              else none
      | bar =>
          let level := { level with others := closed ++ level.others }
          (settled? d true level opened level.before signs).map (sign :: ·)
      | edge _ => (settled? d true level opened closed signs).map (sign :: ·)
      | same n =>
          if closed.contains n then (settled? d false level opened closed signs).map (sign :: ·)
          else none
      | _ =>
          match repetition? sign with
          | none => (settled? d false level opened closed signs).map (sign :: ·)
          | some c =>
              if !isFirst then (settled? d false level opened closed signs).map (sign :: ·)
              else
                match d with
                | .strict => none
                | .extended => settled? d true level opened closed signs
                | .basic =>
                    if c == '\x7b' then none
                    else (settled? d false level opened closed signs).map (char c :: ·)

/-- Is something repeated, and that repeated again by a star or so many times? -/
def repeatsTwice : List Sign → Bool
  | sign :: again :: signs =>
      let isAgain := match again with | star | interval .. => true | _ => false
      (repetition? sign).isSome && isAgain || repeatsTwice (again :: signs)
  | _ => false

mutual

/-- A pattern that is a choice between others. -/
def readChoice? : Nat → List Sign → Option (Pattern × List Sign)
  | 0, _ => none
  | fuel + 1, signs => do
      let (first, rest) ← readSequence? fuel signs
      match rest with
      | bar :: rest =>
          let (second, rest) ← readChoice? fuel rest
          return (first.orElse second, rest)
      | rest => return (first, rest)

/-- Patterns one behind the other. -/
def readSequence? : Nat → List Sign → Option (Pattern × List Sign)
  | 0, _ => none
  | fuel + 1, signs =>
      match signs with
      | [] | bar :: _ | closeGroup :: _ => some (.empty, signs)
      | openGroup n :: rest => do
          let (inner, rest) ← readChoice? fuel rest
          match rest with
          | closeGroup :: rest => readRepeated? fuel (.group n inner) rest
          | _ => none
      | set ranges isNegated :: rest => readRepeated? fuel (.one ranges isNegated) rest
      | edge e :: rest => readRepeated? fuel (.edge e) rest
      | same n :: rest => readRepeated? fuel (.same n false) rest
      | _ => none

/-- A pattern, the signs of repetition behind it, and what follows. -/
def readRepeated? : Nat → Pattern → List Sign → Option (Pattern × List Sign)
  | 0, _, _ => none
  | fuel + 1, p, signs =>
      match signs with
      | star :: rest => readRepeated? fuel (.many p) rest
      | plus :: rest => readRepeated? fuel (p.andThen (.many p)) rest
      | option :: rest => readRepeated? fuel p.optional rest
      | interval least most :: rest =>
          let more :=
            match most with
            | none => .many p
            | some most => p.upTo (most - least)
          readRepeated? fuel ((p.times least).andThen more) rest
      | rest => do
          let (next, rest) ← readSequence? fuel rest
          return (p.andThen next, rest)

end

end Sign

/-- The signs in a text with their meaning. -/
def Pattern.signs? (d : Dialect) (cs : List Char) : Option (List Sign) := do
  let signs ← Sign.ofChars? d (cs.length + 1) true cs
  let whole : Sign.Level := { number := 0, before := [], others := [] }
  Sign.settled? d true whole [] [] (Sign.number 1 signs)

/-- The pattern that a text spells. -/
def Pattern.ofChars? (d : Dialect) (cs : List Char) : Option Pattern := do
  let signs ← signs? d cs
  match ← Sign.readChoice? (4 * signs.length + 4) signs with
  | (pattern, []) => return pattern
  | _ => none

end PlanOrbits.Shell
