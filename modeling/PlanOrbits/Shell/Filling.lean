import PlanOrbits.Shell.Flags
import PlanOrbits.Shell.Line

/-!
# Filling paragraphs

The words of a paragraph are distributed over lines so that all lines are nearly as
long as wanted, and so that sentences are broken at good places. Every line has a cost,
which is larger the farther its length is from the goal and from that of the line behind
it; the lines are chosen for which the sum of the costs is least.
-/

namespace PlanOrbits.Shell

/-- A word of a paragraph. -/
structure FilledWord where
  text : List Char
  /-- How many blanks come behind it in a line. -/
  space : Nat
  opensParenthesis : Bool
  /-- Does it end with the sign for the end of a sentence, perhaps in brackets? -/
  hasPeriod : Bool
  endsInPunctuation : Bool
  /-- Is it the last one of a sentence? -/
  isFinal : Bool
  deriving Repr, Inhabited

namespace Filling

/-- How paragraphs are recognised. -/
inductive Style where
  | plain
  /-- Every line is a paragraph; lines are cut, but not joined. -/
  | splitting
  /-- The second line may be indented in another way. -/
  | crown
  /-- The second line is indented in another way, or the paragraph has one line. -/
  | tagged
  deriving DecidableEq, Repr

/-- How paragraphs are filled. -/
structure Settings where
  style : Style
  /-- No line is longer than this, unless it has one word. -/
  width : Nat
  /-- How long lines are at best. -/
  goal : Nat
  /-- Is there one blank between words, and two behind sentences? -/
  isUniform : Bool

/-! ## Words -/

/-- The columns of the blanks in front of a text. -/
def indentOf (cs : List Char) : Nat :=
  (cs.takeWhile fun c => c == ' ' || c == '\t').foldl
    (fun column c => if c == '\t' then (column / 8 + 1) * 8 else column + 1) 0

/-- A line without the blanks in front of it. -/
def behindIndent (cs : List Char) : List Char := cs.dropWhile fun c => c == ' ' || c == '\t'

/-- Does a word end a sentence, apart from brackets and quotes behind it? -/
def endsSentence (word : List Char) : Bool :=
  let isClosing := fun (c : Char) => [')', ']', '\'', '"'].contains c
  match word.reverse with
  | [] => false
  | c :: cs =>
      match (c :: cs).dropWhile isClosing with
      | last :: _ => ['.', '?', '!'].contains last
      | [] => false

/-- Is a character a sign that is no letter, digit or blank? -/
def isPunctuation (c : Char) : Bool := '!' ≤ c && c ≤ '~' && !c.isAlphanum

/-- The words of a line that begins in a column, without the blanks in front of it. -/
def wordsOf (isUniform : Bool) : Nat → (column : Nat) → List Char → List FilledWord
  | 0, _, _ => []
  | fuel + 1, column, cs =>
      let text := cs.takeWhile fun c => c != ' ' && c != '\t'
      if text.isEmpty then []
      else
        let gap := (cs.drop text.length).takeWhile fun c => c == ' ' || c == '\t'
        let rest := cs.drop (text.length + gap.length)
        let start := column + text.length
        let behind := gap.foldl (fun k c => if c == '\t' then (k / 8 + 1) * 8 else k + 1) start
        let hasPeriod := endsSentence text
        let isFinal := hasPeriod && (rest.isEmpty || 1 < behind - start)
        let word : FilledWord := {
          text, hasPeriod, isFinal
          space :=
            if rest.isEmpty || isUniform then (if isFinal then 2 else 1) else behind - start
          opensParenthesis := text.head?.any ['(', '[', '\'', '\x60', '"'].contains
          endsInPunctuation := text.getLast?.any isPunctuation }
        word :: wordsOf isUniform fuel behind rest

/-! ## Costs -/

/-- The cost of a distance. -/
def square (n : Int) : Int := n * n

/-- The cost of a line whose length is so far from the goal. -/
def shortCost (n : Int) : Int := square (10 * n)

/-- The cost of two lines whose lengths differ so much. -/
def raggedCost (n : Int) : Int := shortCost n / 2

/-- The cost of beginning a line with a word. The two words in front of it are given. -/
def startCost (before beforeThat : Option FilledWord) (w : FilledWord) : Int :=
  let base := square 70
  let break_ :=
    match before with
    | none => 0
    | some b =>
        if b.hasPeriod then (if b.isFinal then -square 50 else square 600)
        else if b.endsInPunctuation then -square 40
        else if beforeThat.any (·.isFinal) then square 200 / ((b.text.length : Int) + 2)
        else 0
  let own :=
    if w.opensParenthesis then -square 40
    else if w.isFinal then square 150 / ((w.text.length : Int) + 2)
    else 0
  base + break_ + own

/-- The best way to distribute the words from one on: what it costs, how many of them are
in the first line, and how long that line is. -/
structure Plan where
  cost : Int
  count : Nat
  length : Nat
  deriving Inhabited

/-- The best plan for words, where plans for the words from every later one on are
given, and the words that come before the first one do not matter. `length` and `count`
are those of the line so far, and `best` is the best plan so far. -/
def choose (s : Settings) (last : FilledWord) :
    (length count : Nat) → (best : Option Plan) → List FilledWord → List Plan → Option Plan
  | length, count, best, rest, plans =>
      let lineCost : Int :=
        match plans with
        | [] => 0
        | plan :: _ =>
            let next := if plan.count == plans.length then 0
              else raggedCost ((length : Int) - plan.length)
            shortCost ((s.goal : Int) - length) + next + plan.cost
      let plan : Plan := { cost := lineCost, count, length }
      let best :=
        match best with
        | some b => if plan.cost < b.cost then plan else b
        | none => plan
      match rest, plans with
      | w :: rest, _ :: plans =>
          let length := length + last.space + w.text.length
          if length < s.width then choose s w length (count + 1) (some best) rest plans
          else some best
      | _, _ => some best

/-- The plans for the words of a paragraph from every word on. The words before are given,
the nearest first. -/
def plans (s : Settings) (first other : Nat) : (before : List FilledWord) → List FilledWord →
    List Plan
  | _, [] => []
  | before, w :: words =>
      let later := plans s first other (w :: before) words
      let indent := if before.isEmpty then first else other
      let best := (choose s w (indent + w.text.length) 1 none words later).getD default
      { best with cost := best.cost + startCost before.head? before.tail.head? w } :: later

/-- The words of each line. -/
def arrange : Nat → List FilledWord → List Plan → List (List FilledWord)
  | 0, _, _ => []
  | _, [], _ | _, _, [] => []
  | fuel + 1, words, plan :: plans =>
      let count := max 1 plan.count
      words.take count :: arrange fuel (words.drop count) ((plan :: plans).drop count)

/-! ## Paragraphs -/

/-- Blanks from a column up to another one; tabs are used, if the text has any. -/
def blanks (hasTabs : Bool) (column target : Nat) : List Char :=
  let stop := target / 8 * 8
  if hasTabs && column + 1 < stop then
    let tabs := (stop - column + 7) / 8
    List.replicate tabs '\t' ++ List.replicate (target - stop) ' '
  else List.replicate (target - column) ' '

/-- A line of words behind an indent. -/
def row (hasTabs : Bool) (indent : Nat) (words : List FilledWord) : List Char :=
  go (indent : Nat) (blanks hasTabs 0 indent) words
where
  /-- The words behind a text that ends in a column. -/
  go (column : Nat) (front : List Char) : List FilledWord → List Char
    | [] => Line.ended front
    | [w] => Line.ended (front ++ w.text)
    | w :: words =>
        let column := column + w.text.length
        go (column + w.space) (front ++ w.text ++ blanks hasTabs column (column + w.space)) words

/-- The indent of the lines of a paragraph behind the first one. `previous` is the one of
the paragraph before, and `next?` the indent of the next line if it belongs to it. -/
def otherIndent (style : Style) (previous first : Nat) (next? : Option Nat) : Nat :=
  match style with
  | .plain | .splitting => first
  | .crown => next?.getD first
  | .tagged =>
      match next?.filter (· != first) with
      | some next => next
      | none => if previous == first then (if first == 0 then 3 else 0) else previous

/-- Is a line empty, apart from blanks? -/
def isBlankLine (cs : List Char) : Bool := (behindIndent cs).isEmpty

/-- How many of the lines behind the first one of a paragraph belong to it. -/
def countMore (style : Style) (first other : Nat) (lines : List (List Char)) : Nat :=
  let run := (lines.takeWhile fun line => !isBlankLine line && indentOf line == other).length
  match style with
  | .splitting => 0
  | .plain | .crown => run
  | .tagged => if lines.head?.any (indentOf · == first) then 0 else run

/-- Fill the paragraphs of a text. `previous` is the indent of the paragraph before, and
`hasTabs` tells whether there were tabs in it. -/
def fill (s : Settings) : Nat → (hasTabs : Bool) → (previous : Nat) → List (List Char) → List Char
  | 0, _, _, _ => []
  | _, _, _, [] => []
  | fuel + 1, hasTabs, previous, line :: lines =>
      if isBlankLine line then '\n' :: fill s fuel (hasTabs || line.contains '\t') previous lines
      else
        let first := indentOf line
        let next? := (lines.head?.filter (!isBlankLine ·)).map indentOf
        let other := otherIndent s.style previous first next?
        let count := countMore s.style first other lines
        let ahead := ((lines.drop count).headD []).takeWhile fun c => c == ' ' || c == '\t'
        let hasTabs :=
          hasTabs || (line :: lines.take count).any (·.contains '\t') || ahead.contains '\t'
        let words := (line :: lines.take count).flatMap fun line =>
          wordsOf s.isUniform (line.length + 1) (indentOf line) (behindIndent line)
        let words :=
          match words.getLast? with
          | some last => words.dropLast ++ [{ last with hasPeriod := true, isFinal := true }]
          | none => words
        let rows := arrange words.length words (plans s first other [] words)
        let texts := (rows.take 1).map (row hasTabs first) ++ (rows.drop 1).map (row hasTabs other)
        texts.flatten ++ fill s fuel hasTabs other (lines.drop count)

/-! ## Arguments -/

/-- The flags of the filter that fills paragraphs. -/
def table : FlagTable where
  plain := "cstu"
  valued := "wgp"
  long := [("crown-margin", 'c'), ("split-only", 's'), ("tagged-paragraph", 't'),
    ("uniform-spacing", 'u'), ("width", 'w'), ("goal", 'g'), ("prefix", 'p')]
  isMixed := true

/-- The settings that arguments ask for, and the files to be read. -/
def ofArgs? (args : List (List Char)) : Option (Settings × List (List Char)) := do
  let args :=
    match args with
    | ('-' :: c :: cs) :: rest =>
        if (c :: cs).all Text.isDigit then ('-' :: 'w' :: c :: cs) :: rest else args
    | _ => args
  let f ← Flags.ofArgs? table args
  let goal? ← if f.has 'g' then (f.number? 'g' 0).map some else some none
  let width ← f.number? 'w' (goal?.elim 75 (· + 10))
  if width < goal?.getD 0 then none
  let style :=
    if f.has 's' then Style.splitting
    else if f.has 'c' then .crown
    else if f.has 't' then .tagged
    else .plain
  return ({ style, width, goal := goal?.getD (width * 187 / 200), isUniform := f.has 'u' },
    f.operands)

/-- The text with its paragraphs filled. -/
def run (s : Settings) (text : List Char) : List Char :=
  let lines := Line.all text
  fill s (lines.length + 1) false 0 lines

end Filling

end PlanOrbits.Shell
