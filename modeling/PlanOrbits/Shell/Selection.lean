import PlanOrbits.Shell.Flags
import PlanOrbits.Shell.Line
import PlanOrbits.Shell.Pattern
import PlanOrbits.Shell.Trial

/-!
# Selecting lines

The lines of texts in which a pattern occurs, or what is to be known about them:
how many there are, what exactly occurs, which texts have any.
-/

namespace PlanOrbits.Shell

/-- How lines are selected. -/
structure Selection where
  flags : Flags
  patterns : List Pattern
  /-- A pattern of another kind, which then is the only one. -/
  trial : Option Trial
  /-- How many lines are selected at most. -/
  most : Option Nat
  /-- How many lines are shown in front of a selected one, and behind it. -/
  context : Nat × Nat

namespace Selection

/-- The flags of a selection. -/
def table : FlagTable where
  plain := "vcqioxEFGnwhHlLasrRzbyPUZTIu"
  valued := "emfABCdDW12345"
  optional := "g"
  long := [("invert-match", 'v'), ("count", 'c'), ("quiet", 'q'), ("silent", 'q'),
    ("ignore-case", 'i'), ("no-ignore-case", 'j'), ("only-matching", 'o'), ("line-regexp", 'x'),
    ("extended-regexp", 'E'), ("fixed-strings", 'F'), ("basic-regexp", 'G'),
    ("perl-regexp", 'P'), ("line-number", 'n'), ("word-regexp", 'w'), ("no-filename", 'h'),
    ("with-filename", 'H'), ("files-with-matches", 'l'), ("files-without-match", 'L'),
    ("text", 'a'), ("no-messages", 's'), ("regexp", 'e'), ("file", 'f'), ("max-count", 'm'),
    ("color", 'g'), ("colour", 'g'), ("after-context", 'A'), ("before-context", 'B'),
    ("context", 'C'), ("byte-offset", 'b'), ("null", 'Z'), ("null-data", 'z'),
    ("initial-tab", 'T'), ("line-buffered", 'u'), ("binary", 'U'), ("recursive", 'r'),
    ("dereference-recursive", 'R'), ("label", '1'), ("include", '2'), ("exclude", '3'),
    ("exclude-dir", '4'), ("group-separator", '5'), ("no-group-separator", 'N'),
    ("directories", 'd'), ("devices", 'D'), ("binary-files", 'W')]
  isMixed := true

/-- Arguments in which a number behind a dash is written as the flag that it stands
for: so many lines of context. -/
def withContextFlag (args : List (List Char)) : List (List Char) :=
  args.flatMap fun arg =>
    match arg with
    | '-' :: rest =>
        let front := rest.takeWhile fun c => table.plain.toList.contains c
        let digits := (rest.drop front.length).takeWhile Text.isDigit
        if digits.isEmpty then [arg]
        else
          let others := front ++ rest.drop (front.length + digits.length)
          ('-' :: 'C' :: digits) :: if others.isEmpty then [] else ['-' :: others]
    | _ => [arg]

/-- A pattern that is a whole line or a whole word, if that is asked for. -/
def delimit (f : Flags) (p : Pattern) : Pattern :=
  if f.has 'x' then ((Pattern.edge .lineStart).andThen p).andThen (.edge .lineEnd)
  else if f.has 'w' then ((Pattern.edge .noWordBefore).andThen p).andThen (.edge .noWordBehind)
  else p

/-- Is case of no importance? -/
def ignoresCase (f : Flags) : Bool :=
  ((f.given.map Prod.fst).filter ['i', 'y', 'j'].contains).getLast?.any (· != 'j')

/-- Is a set of characters written like a named class, which has one more pair of
brackets? -/
def isConfusing : List Char → Bool
  | [] => false
  | '\\' :: _ :: cs => isConfusing cs
  | '[' :: cs =>
      let inner := if cs.head? == some '^' then cs.tail else cs
      let members := (inner.take 1) ++ (inner.drop 1).takeWhile (· != ']')
      if members.head? == some ':' then members.getLast? == some ':' && 2 < members.length
      else isInSet cs
  | _ :: cs => isConfusing cs
where
  /-- Go on behind a set. -/
  isInSet : List Char → Bool
    | [] => false
    | ']' :: cs => isConfusing cs
    | _ :: cs => isInSet cs

/-- The pattern on one line of an argument. -/
def pattern? (f : Flags) (cs : List Char) : Option Pattern := do
  let p ←
    if f.has 'F' then some (Pattern.ofText cs)
    else if isConfusing cs then none
    else Pattern.ofChars? (if f.has 'E' then .extended else .basic) cs
  return delimit f (if ignoresCase f then p.ignoringCase else p)

/-- The pattern that is tried in order, as a whole line or a whole word if that is asked
for. -/
def trial? (f : Flags) (cs : List Char) : Option Trial := do
  let p ← Trial.ofChars? (ignoresCase f) cs
  let between := fun (front behind : Trial) => Trial.sequence front (.sequence p behind)
  if f.has 'x' then return between .lineStart .lineEnd
  else if f.has 'w' then
    let letter := Trial.one (('_', '_') :: Sign.classRanges "alnum") false
    return between (.look true true letter) (.look false true letter)
  else return p

/-- The flags of a selection, given the form of its patterns. -/
def flags? (isExtended isLiteral : Bool) (args : List (List Char)) : Option Flags := do
  let f ← Flags.ofArgs? table (withContextFlag args)
  let forms := (f.given.map Prod.fst).filter ['E', 'F', 'G', 'P'].contains
  let usual := if isExtended then some 'E' else if isLiteral then some 'F' else none
  match (usual.toList ++ forms).eraseDups with
  | [] => return { f with given := ('G', []) :: f.given }
  | [form] => return { f with given := (form, []) :: f.given }
  | _ => none

/-- The selection that flags ask for, and the files to be read. `listed` are patterns
from files. -/
def ofFlags? (f : Flags) (listed : Option (List (List Char))) :
    Option (Selection × List (List Char)) := do
  let (written, files) ←
    match f.values 'e', listed, f.operands with
    | [], none, written :: files => some ([written], files)
    | [], none, [] => none
    | written, _, files => some (written, files)
  let texts := (written.flatMap fun cs => Text.pieces (· == '\n') cs) ++ listed.getD []
  let patterns ← if f.has 'P' then some [] else texts.mapM (pattern? f)
  let trial ←
    if f.has 'P' then
      match texts with
      | [cs] => (trial? f cs).map some
      | _ => none
    else some none
  let most ← if f.has 'm' then (f.number? 'm' 0).map some else some none
  let around ← f.number? 'C' 0
  return ({ flags := f, patterns, trial, most,
            context := (← f.number? 'B' around, ← f.number? 'A' around) }, files)

variable (s : Selection)

/-- Is a line selected? -/
def selects (line : List Char) : Bool :=
  let isFound :=
    match s.trial with
    | some p => p.occursIn line
    | none => s.patterns.any fun p => (p.resolved line).occursIn line
  isFound != s.flags.has 'v'

/-- What occurs in a line, one occurrence behind the other, with the number of
characters in front; the empty text does not count. -/
def occurrences (line : List Char) : List (Nat × List Char) :=
  match s.trial with
  | some p => p.occurrences line
  | none =>
      let p := s.patterns.foldl (fun p q => p.orElse (q.resolved line)) .never
      go p (line.length + 1) 0 none line
where
  /-- The occurrences in the rest of a line, in front of which there may be a
  character. -/
  go (p : Pattern) : Nat → (start : Nat) → Option Char → List Char → List (Nat × List Char)
    | 0, _, _, _ => []
    | fuel + 1, start, before, rest =>
        match p.occurrence? before rest with
        | none => []
        | some o =>
            let place := start + (rest.length - o.rest.length - o.text.length)
            if o.text.isEmpty then
              match o.rest with
              | [] => []
              | c :: behind => go p fuel (place + 1) (some c) behind
            else (place, o.text) :: go p fuel (place + o.text.length) (o.last? before) o.rest

/-- What ends the lines. -/
def mark : Char := if s.flags.has 'z' then '\x00' else '\n'

/-- The numbers of the lines that are shown, and whether each is selected. -/
def shown (selected : List Nat) (count : Nat) : List (Nat × Bool) :=
  let (before, behind) := s.context
  (List.range count).filterMap fun n =>
    if selected.contains n then some (n, true)
    else if selected.any fun k => k ≤ n + before && n ≤ k + behind then some (n, false)
    else none

/-- What is between groups of lines that are not neighbours. -/
def separator : List Char :=
  if s.flags.has 'N' then []
  else
    match s.flags.value? '5' with
    | some cs => Line.ended cs
    | none => Line.ended ['-', '-']

/-- A name with what stands behind it. -/
def named (mark : Char) (name : List Char) : List Char :=
  name ++ [if s.flags.has 'Z' then '\x00' else mark]

/-- Is a text one that is not shown, as it holds null characters? -/
def isHidden (text : List Char) : Bool :=
  text.contains '\x00' && !s.flags.has 'a' && !s.flags.has 'z' &&
    s.flags.value? 'W' != some "text".toList

/-- What was found in a text. -/
structure Finding where
  output : List Char
  isFound : Bool
  /-- What stands behind the last line that was selected. -/
  rest : List Char

/-- What is written about one text, in front of which its name may stand. -/
def run (isNamed : Bool) (name : List Char) (text : List Char) : Finding :=
  let lines := Line.allEndedBy s.mark text
  let starts := lines.foldl (fun (starts : List Nat × Nat) line =>
    (starts.2 :: starts.1, starts.2 + line.length + 1)) ([], 0)
  let starts := starts.1.reverse.toArray
  let numbered := (List.range lines.length).zip lines
  let selected := numbered.filter fun (_, line) => s.selects line
  let selected := s.most.elim selected (selected.take ·)
  let label := fun (mark : Char) (n place : Nat) =>
    (if isNamed then s.named mark name else []) ++
      (if s.flags.has 'n' then Text.decimal (n + 1) ++ [mark] else []) ++
      (if s.flags.has 'b' then Text.decimal (starts.getD n 0 + place) ++ [mark] else []) ++
      (if s.flags.has 'T' then ['\t'] else [])
  let ended := fun (line : List Char) => line ++ [s.mark]
  let isFound := !selected.isEmpty
  let output :=
    if s.flags.has 'q' then []
    else if s.flags.has 'l' || s.flags.has 'L' then
      if isFound == s.flags.has 'l' then s.named '\n' name else []
    else if s.flags.has 'c' then
      (if isNamed then s.named ':' name else []) ++ Line.ofNat selected.length
    else if s.isHidden text then []
    else if s.flags.has 'o' then
      selected.flatMap fun (n, line) =>
        if s.flags.has 'v' then []
        else (s.occurrences line).flatMap fun (place, text) => label ':' n place ++ ended text
    else if !(['A', 'B', 'C'].any s.flags.has) then
      selected.flatMap fun (n, line) => label ':' n 0 ++ ended line
    else
      let shown := s.shown (selected.map Prod.fst) lines.length
      let firsts := shown.map Prod.fst
      shown.flatMap fun (n, isSelected) =>
        let isApart := 0 < n && firsts.head? != some n && !firsts.contains (n - 1)
        (if isApart then s.separator else []) ++
          label (if isSelected then ':' else '-') n 0 ++ ended (lines.getD n [])
  let rest :=
    match selected.getLast? with
    | some (n, line) => text.drop (starts.getD n 0 + line.length + 1)
    | none => text
  { output, isFound, rest }

end Selection

end PlanOrbits.Shell
