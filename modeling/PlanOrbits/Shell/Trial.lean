import PlanOrbits.Shell.Pattern
import PlanOrbits.Text.Blank

/-!
# Patterns that are tried in order

Patterns whose choices are made one after the other: of two choices the first one that
leads to a match counts, and a repetition takes as much as it can, or as little. Such a
pattern may look around without taking anything.
-/

namespace PlanOrbits.Shell

/-- A pattern that is tried in order. -/
inductive Trial where
  | nothing
  | one (ranges : List (Char × Char)) (isNegated : Bool)
  | lineStart
  | lineEnd
  /-- The end of the text. -/
  | textEnd
  /-- The edge of a word, or a place where there is none. -/
  | wordEdge (isNegated : Bool)
  | sequence (a b : Trial)
  | choice (a b : Trial)
  /-- At least so often, and at most so often: as often as possible, or as seldom. -/
  | many (p : Trial) (least : Nat) (most : Option Nat) (isEager : Bool)
  /-- The text that matches gets a number. -/
  | group (number : Nat) (p : Trial)
  /-- The text of a group once more. -/
  | again (number : Nat) (ignoresCase : Bool)
  /-- What follows, or what is in front, matches, or it does not. -/
  | look (isBehind isNegated : Bool) (p : Trial)
  /-- The first match counts, even if the rest then does not match. -/
  | settled (p : Trial)
  /-- The match begins here. -/
  | start
  deriving Repr

namespace Trial

/-! ## Matching -/

/-- A place in a text while a pattern is tried. -/
structure Spot where
  /-- What is in front, the nearest first. -/
  before : List Char
  rest : List Char
  groups : List (Nat × List Char)
  /-- How much is in front of the match. -/
  start : Nat

/-- The place behind the next character, if it is one of those that are wanted. -/
def Spot.step? (s : Spot) (isWanted : Char → Bool) : Option Spot :=
  match s.rest with
  | c :: rest => if isWanted c then some { s with before := c :: s.before, rest } else none
  | [] => none

/-- The place that is so many characters nearer to the beginning. -/
def Spot.back (s : Spot) (n : Nat) : Spot :=
  { s with before := s.before.drop n, rest := (s.before.take n).reverse ++ s.rest }

/-- Take the characters of a text one after the other. -/
def Spot.take? (s : Spot) (ignoresCase : Bool) : List Char → Option Spot
  | [] => some s
  | c :: cs =>
      (s.step? fun d =>
        if ignoresCase then c.toLower == d.toLower else c == d).bind (·.take? ignoresCase cs)

/-- Is the place between a character of a word and another one? -/
def Spot.isWordEdge (s : Spot) : Bool :=
  s.before.head?.any isWordChar != s.rest.head?.any isWordChar

/-- Try a pattern at a place; what follows is tried behind each way to match it, until
there is a match. -/
def run : Nat → Trial → Spot → (Spot → Option Spot) → Option Spot
  | 0, _, _, _ => none
  | fuel + 1, p, s, next =>
      match p with
      | .nothing => next s
      | .one ranges isNegated => (s.step? (Pattern.matchesOne ranges isNegated)).bind next
      | .lineStart => if s.before.head?.all (· == '\n') then next s else none
      | .lineEnd => if s.rest.head?.all (· == '\n') then next s else none
      | .textEnd => if s.rest.isEmpty then next s else none
      | .wordEdge isNegated => if s.isWordEdge != isNegated then next s else none
      | .sequence a b => run fuel a s fun s => run fuel b s next
      | .choice a b => (run fuel a s next).or (run fuel b s next)
      | .many p least most isEager =>
          let once := fun (_ : Unit) =>
            if most == some 0 then none
            else
              run fuel p s fun t =>
                -- A round that takes nothing is the last one.
                if t.rest.length == s.rest.length && least == 0 then none
                else run fuel (.many p (least - 1) (most.map (· - 1)) isEager) t next
          if 0 < least then once ()
          else if isEager then (once ()).or (next s)
          else (next s).or (once ())
      | .group number p =>
          run fuel p s fun t =>
            let text := (t.before.take (t.before.length - s.before.length)).reverse
            next { t with groups := (number, text) :: t.groups }
      | .again number ignoresCase =>
          ((s.groups.lookup number).bind (s.take? ignoresCase ·)).bind next
      | .look isBehind isNegated p =>
          let found :=
            if isBehind then
              (List.range (s.before.length + 1)).findSome? fun n =>
                run fuel p (s.back n) fun t =>
                  if t.rest.length == s.rest.length then some t else none
            else run fuel p s some
          match found with
          | some t => if isNegated then none else next { s with groups := t.groups }
          | none => if isNegated then next s else none
      | .settled p => (run fuel p s some).bind next
      | .start => next { s with start := s.before.length }

/-- How deep a pattern is. -/
def depth : Trial → Nat
  | sequence a b | choice a b => max a.depth b.depth + 1
  | many p _ _ _ | group _ p | look _ _ p | settled p => p.depth + 1
  | _ => 1

/-- How often a pattern asks for repetitions of its own. -/
def rounds : Trial → Nat
  | sequence a b | choice a b => a.rounds + b.rounds
  | many p least _ _ => p.rounds * (least + 1) + least + 1
  | group _ p | look _ _ p | settled p => p.rounds
  | _ => 0

/-- The match that begins at a place, if there is one. -/
def matchAt? (p : Trial) (s : Spot) : Option Spot :=
  run ((p.depth + 2) * (s.before.length + s.rest.length + p.rounds + 2)) p s some

/-- The first match at a place or behind it: what is in front of it, the text, and what
is behind it. -/
def find? (p : Trial) : Nat → Spot → Option (List Char × List Char × List Char)
  | 0, _ => none
  | fuel + 1, s =>
      match p.matchAt? { s with start := s.before.length } with
      | some t =>
          let taken := t.before.reverse
          some (taken.take t.start, taken.drop t.start, t.rest)
      | none =>
          match s.step? fun _ => true with
          | some s => find? p fuel s
          | none => none

/-- Does a pattern match anywhere in a line? -/
def occursIn (p : Trial) (line : List Char) : Bool :=
  (p.find? (line.length + 1) { before := [], rest := line, groups := [], start := 0 }).isSome

/-- What matches in a line, one text behind the other, with the number of characters in
front; the empty text does not count. -/
def occurrences (p : Trial) (line : List Char) : List (Nat × List Char) :=
  go (line.length + 2) [] line
where
  /-- The matches in the rest of a line. -/
  go : Nat → (before rest : List Char) → List (Nat × List Char)
    | 0, _, _ => []
    | fuel + 1, before, rest =>
        match p.find? (rest.length + 1) { before, rest, groups := [], start := 0 } with
        | none => []
        | some (front, text, behind) =>
            if text.isEmpty then
              match behind with
              | [] => []
              | c :: behind => go fuel (c :: front.reverse) behind
            else (front.length, text) :: go fuel ((front ++ text).reverse) behind

/-! ## Reading -/

/-- What the reader of a pattern knows. -/
structure ReaderState where
  groups : Nat
  names : List (List Char × Nat)
  ignoresCase : Bool
  dotTakesAll : Bool

/-- All characters that are in none of the ranges. -/
def complement (ranges : List (Char × Char)) : List (Char × Char) :=
  ((List.range 256).map Char.ofNat).filterMap fun c =>
    if Pattern.isInRanges ranges c then none else some (c, c)

/-- The characters that a letter behind a backslash stands for. -/
def classOf? : Char → Option (List (Char × Char))
  | 'd' => some (Sign.classRanges "digit")
  | 'w' => some (('_', '_') :: Sign.classRanges "alnum")
  | 's' => some (Sign.classRanges "space")
  | 'h' => some (Sign.classRanges "blank")
  | 'v' => some [('\n', '\r')]
  | 'D' => some (complement (Sign.classRanges "digit"))
  | 'W' => some (complement (('_', '_') :: Sign.classRanges "alnum"))
  | 'S' => some (complement (Sign.classRanges "space"))
  | 'H' => some (complement (Sign.classRanges "blank"))
  | 'N' => some (complement [('\n', '\n')])
  | _ => none

/-- The number that hexadecimal digits denote. -/
def hexValue (cs : List Char) : Nat :=
  cs.foldl (fun n c => 16 * n + (Text.hexDigit? c).getD 0) 0

/-- The character that stands behind a backslash, and what is behind it. -/
def readEscaped : List Char → Option (Char × List Char)
  | [] => none
  | 'n' :: cs => some ('\n', cs)
  | 't' :: cs => some ('\t', cs)
  | 'r' :: cs => some ('\r', cs)
  | 'f' :: cs => some ('\x0c', cs)
  | 'a' :: cs => some ('\x07', cs)
  | 'e' :: cs => some ('\x1b', cs)
  | 'x' :: '\x7b' :: cs =>
      let digits := cs.takeWhile (· != '\x7d')
      some (Char.ofNat (hexValue digits % 256), cs.drop (digits.length + 1))
  | 'x' :: cs =>
      let digits := (cs.take 2).takeWhile fun c => (Text.hexDigit? c).isSome
      some (Char.ofNat (hexValue digits), cs.drop digits.length)
  | '0' :: cs => some ('\x00', cs)
  | c :: cs => some (c, cs)

/-- The ranges up to the closing bracket. -/
def readSet : Nat → (isFirst : Bool) → List Char → Option (List (Char × Char) × List Char)
  | 0, _, _ => none
  | fuel + 1, isFirst, cs =>
      match cs with
      | [] => none
      | ']' :: rest => if isFirst then member fuel ']' rest else some ([], rest)
      | '[' :: ':' :: rest =>
          match Sign.readClass? rest with
          | some (ranges, rest) => withMore fuel ranges rest
          | none => member fuel '[' (':' :: rest)
      | '\\' :: c :: rest =>
          match classOf? c with
          | some ranges => withMore fuel ranges rest
          | none =>
              if c == 'b' then member fuel '\x08' rest
              else (readEscaped (c :: rest)).bind fun (c, rest) => member fuel c rest
      | c :: rest => member fuel c rest
where
  /-- Ranges, and those that follow. -/
  withMore (fuel : Nat) (ranges : List (Char × Char)) (cs : List Char) :
      Option (List (Char × Char) × List Char) := do
    let (more, rest) ← readSet fuel false cs
    return (ranges ++ more, rest)
  /-- A character, or the range that begins with it. -/
  member (fuel : Nat) (low : Char) (cs : List Char) :
      Option (List (Char × Char) × List Char) :=
    match cs with
    | '-' :: high :: rest =>
        if high == ']' then withMore fuel [(low, low)] cs
        else if high == '\\' then
          match rest with
          | c :: _ =>
              if (classOf? c).isSome then withMore fuel [(low, low), ('-', '-')] (high :: rest)
              else
                (readEscaped rest).bind fun (high, rest) =>
                  if high < low then none else withMore fuel [(low, high)] rest
          | [] => none
        else if high < low then none
        else withMore fuel [(low, high)] rest
    | cs => withMore fuel [(low, low)] cs

/-- The number of repetitions in braces, and what is behind them. -/
def readCount? (cs : List Char) : Option (Nat × Option Nat × List Char) := do
  let low := cs.takeWhile Text.isDigit
  let least ← (Text.digits? low).map Text.number
  match cs.drop low.length with
  | '\x7d' :: rest => return (least, some least, rest)
  | ',' :: rest =>
      let high := rest.takeWhile Text.isDigit
      match rest.drop high.length with
      | '\x7d' :: behind =>
          if high.isEmpty then return (least, none, behind)
          else
            let most := Text.number (← Text.digits? high)
            if most < least then none else return (least, some most, behind)
      | _ => none
  | _ => none

/-- How often what was read is repeated, and what is behind that. -/
def readRepeats : Nat → Trial → List Char → Option (Trial × List Char)
  | 0, _, _ => none
  | fuel + 1, p, cs =>
      let counted? :=
        match cs with
        | '*' :: rest => some (0, none, rest)
        | '+' :: rest => some (1, none, rest)
        | '?' :: rest => some (0, some 1, rest)
        | '\x7b' :: rest => readCount? rest
        | _ => none
      match counted? with
      | none => some (p, cs)
      | some (least, most, rest) =>
          match rest with
          | '?' :: rest => readRepeats fuel (.many p least most false) rest
          | '+' :: rest => readRepeats fuel (.settled (.many p least most true)) rest
          | rest =>
              -- A repetition is not repeated.
              if ['*', '+', '?'].any fun c => rest.head? == some c then none
              else some (.many p least most true, rest)

/-- The characters of a text, one behind the other. -/
def ofText (ignoresCase : Bool) (cs : List Char) : Trial :=
  cs.foldr (fun c p =>
    let ranges := if ignoresCase then Pattern.bothCases [(c, c)] else [(c, c)]
    .sequence (.one ranges false) p) .nothing

/-- What is read, what is left, and what the reader knows then. -/
abbrev ReadResult := Option (Trial × List Char × ReaderState)

mutual

/-- Patterns with bars between them. -/
def readChoice : Nat → ReaderState → List Char → ReadResult
  | 0, _, _ => none
  | fuel + 1, state, cs => do
      let (a, rest, state) ← readSequence fuel state cs
      match rest with
      | '|' :: rest =>
          let (b, rest, state) ← readChoice fuel state rest
          return (.choice a b, rest, state)
      | rest => return (a, rest, state)

/-- Patterns one behind the other. -/
def readSequence : Nat → ReaderState → List Char → ReadResult
  | 0, _, _ => none
  | fuel + 1, state, cs =>
      match cs with
      | [] | '|' :: _ | ')' :: _ => some (.nothing, cs, state)
      | _ => do
          let (a, rest, state) ← readAtom fuel state cs
          let (a, rest) ← readRepeats fuel a rest
          let (b, rest, state) ← readSequence fuel state rest
          return (.sequence a b, rest, state)

/-- What stands in parentheses, up to the closing one. -/
def readInner (fuel : Nat) (state : ReaderState) (cs : List Char) (wrap : Trial → Trial) :
    ReadResult := do
  match fuel with
  | 0 => none
  | fuel + 1 =>
      let (p, rest, after) ← readChoice fuel state cs
      match rest with
      | ')' :: rest =>
          return (wrap p, rest,
            { after with ignoresCase := state.ignoresCase, dotTakesAll := state.dotTakesAll })
      | _ => none

/-- A pattern that can be repeated. -/
def readAtom : Nat → ReaderState → List Char → ReadResult
  | 0, _, _ => none
  | fuel + 1, state, cs =>
      let set := fun (ranges : List (Char × Char)) (isNegated : Bool) =>
        Trial.one (if state.ignoresCase then Pattern.bothCases ranges else ranges) isNegated
      match cs with
      | [] => none
      | '.' :: rest =>
          some (if state.dotTakesAll then .one [] true else .one [('\n', '\n')] true, rest, state)
      | '^' :: rest => some (.lineStart, rest, state)
      | '$' :: rest => some (.lineEnd, rest, state)
      | '[' :: '^' :: rest => do
          let (ranges, rest) ← readSet (rest.length + 2) true rest
          return (set ranges true, rest, state)
      | '[' :: rest => do
          let (ranges, rest) ← readSet (rest.length + 2) true rest
          return (set ranges false, rest, state)
      | '(' :: '?' :: rest => readSpecial fuel state rest
      | '(' :: rest =>
          let number := state.groups + 1
          readInner fuel { state with groups := number } rest (.group number)
      | '\\' :: c :: rest =>
          match c with
          | 'b' => some (.wordEdge false, rest, state)
          | 'B' => some (.wordEdge true, rest, state)
          | 'A' => some (.lineStart, rest, state)
          | 'z' | 'Z' => some (.textEnd, rest, state)
          | 'K' => some (.start, rest, state)
          | 'G' => some (.nothing, rest, state)
          | 'R' => some (.one [('\n', '\r')] false, rest, state)
          | 'Q' =>
              let text := ((Text.cutAround? ['\\', 'E'] rest).map Prod.fst).getD rest
              let behind := ((Text.cutAround? ['\\', 'E'] rest).map Prod.snd).getD []
              some (ofText state.ignoresCase text, behind, state)
          | 'E' => some (.nothing, rest, state)
          | 'g' =>
              let rest := if rest.head? == some '\x7b' then rest.tail else rest
              let digits := rest.takeWhile Text.isDigit
              let rest := rest.drop digits.length
              (Text.digits? digits).map fun ds =>
                (.again (Text.number ds) state.ignoresCase,
                  if rest.head? == some '\x7d' then rest.tail else rest, state)
          | 'k' =>
              let name := rest.tail.takeWhile fun c => c != '>' && c != '\x7d' && c != '\''
              (state.names.lookup name).map fun n =>
                (.again n state.ignoresCase, rest.drop (name.length + 2), state)
          | c =>
              if Text.isDigit c && c != '0' then
                let digits := (c :: rest).takeWhile Text.isDigit
                (Text.digits? digits).map fun ds =>
                  (.again (Text.number ds) state.ignoresCase, (c :: rest).drop digits.length, state)
              else
                match classOf? c with
                | some ranges => some (set ranges false, rest, state)
                | none => (readEscaped (c :: rest)).map fun (c, rest) =>
                    (set [(c, c)] false, rest, state)
      | c :: rest =>
          if ['*', '+', '?', ')', '|'].contains c || c == '\\' then none
          else some (set [(c, c)] false, rest, state)

/-- What stands behind a parenthesis and a question mark. -/
def readSpecial : Nat → ReaderState → List Char → ReadResult
  | 0, _, _ => none
  | fuel + 1, state, cs =>
      match cs with
      | ':' :: rest => readInner fuel state rest id
      | '=' :: rest => readInner fuel state rest (.look false false)
      | '!' :: rest => readInner fuel state rest (.look false true)
      | '<' :: '=' :: rest => readInner fuel state rest (.look true false)
      | '<' :: '!' :: rest => readInner fuel state rest (.look true true)
      | '>' :: rest => readInner fuel state rest .settled
      | '#' :: rest => some (.nothing, (rest.dropWhile (· != ')')).drop 1, state)
      | 'P' :: '<' :: rest | '<' :: rest | '\'' :: rest =>
          let name := rest.takeWhile fun c => c != '>' && c != '\''
          let number := state.groups + 1
          readInner fuel { state with groups := number, names := (name, number) :: state.names }
            (rest.drop (name.length + 1)) (.group number)
      | cs =>
          let letters := cs.takeWhile fun c => c.isAlpha || c == '-'
          let on := letters.takeWhile (· != '-')
          let off := letters.drop on.length
          let inner :=
            { state with
              ignoresCase := (state.ignoresCase || on.contains 'i') && !off.contains 'i'
              dotTakesAll := (state.dotTakesAll || on.contains 's') && !off.contains 's' }
          match cs.drop letters.length with
          | ')' :: rest => some (.nothing, rest, inner)
          | ':' :: rest =>
              (readInner fuel inner rest id).map fun (p, rest, after) =>
                (p, rest, { after with
                  ignoresCase := state.ignoresCase, dotTakesAll := state.dotTakesAll })
          | _ => none

end

/-- The pattern that a text spells. -/
def ofChars? (ignoresCase : Bool) (cs : List Char) : Option Trial := do
  let state : ReaderState := { groups := 0, names := [], ignoresCase, dotTakesAll := false }
  let (p, rest, _) ← readChoice (8 * cs.length + 8) state cs
  if rest.isEmpty then return p else none

end Trial

end PlanOrbits.Shell
