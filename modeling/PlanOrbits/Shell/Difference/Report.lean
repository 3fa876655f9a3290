import PlanOrbits.Shell.Difference.Change
import PlanOrbits.Shell.Flags

/-!
# Reports of changes

The changes between two texts in words: as commands with the lines that are removed
and added, with lines around them that stay, as instructions for an editor, or side by
side.
-/

namespace PlanOrbits.Shell.Difference

/-- How changes are reported. -/
inductive Style where
  | commands
  /-- With so many lines around changes, removed and added lines in one list. -/
  | unified (around : Nat)
  /-- With so many lines around changes, first the old lines and then the new ones. -/
  | context (around : Nat)
  /-- Instructions for an editor. -/
  | edits
  /-- Instructions that count lines. -/
  | counts
  /-- In so many columns. -/
  | sideBySide (width : Nat)
  deriving DecidableEq, Repr

/-- How many lines around changes a style shows. -/
def Style.around : Style → Nat
  | unified around | context around => around
  | _ => 0

/-- Two texts as lines with their line feeds, the last of which may have none. -/
structure Texts where
  firsts : Array (List Char)
  seconds : Array (List Char)

namespace Texts

/-- Some lines of a text. -/
def slice (lines : Array (List Char)) (start count : Nat) : List (List Char) :=
  (lines.extract start (start + count)).toList

/-- A line behind a mark. A line without a line feed is followed by a remark. -/
def marked (mark : List Char) (line : List Char) : List Char :=
  mark ++ line ++
    if line.getLast? == some '\n' then [] else "\n\\ No newline at end of file\n".toList

/-- Lines behind marks. -/
def allMarked (mark : List Char) (lines : List (List Char)) : List Char :=
  lines.flatMap (marked mark)

/-- The numbers of the first and the last of some lines; without lines, the number of
the line before them. -/
def rangeText (start count : Nat) : List Char :=
  if 1 < count then Text.decimal (start + 1) ++ ',' :: Text.decimal (start + count)
  else Text.decimal (start + count)

/-- The number of the first of some lines, and how many there are. -/
def countText (start count : Nat) : List Char :=
  if count = 0 then Text.decimal start ++ [',', '0']
  else if count = 1 then Text.decimal (start + 1)
  else Text.decimal (start + 1) ++ ',' :: Text.decimal count

variable (t : Texts)

/-- The lines that a change removes. -/
def removed (c : Change) : List (List Char) := slice t.firsts c.first c.removed

/-- The lines that a change adds. -/
def added (c : Change) : List (List Char) := slice t.seconds c.second c.added

/-! ## Commands -/

/-- The letter for a change. -/
def letter (c : Change) : Char := if c.removed = 0 then 'a' else if c.added = 0 then 'd' else 'c'

/-- A change as a command. -/
def commandText (c : Change) : List Char :=
  rangeText c.first c.removed ++ letter c :: rangeText c.second c.added ++ '\n' ::
    allMarked ['<', ' '] (t.removed c) ++
    (if letter c == 'c' then "---\n".toList else []) ++
    allMarked ['>', ' '] (t.added c)

/-- A change as an instruction for an editor. A line that is only a point would end the
text of the instruction, and is made of two points. -/
def editText (c : Change) : List Char :=
  let lines := t.added c
  let pointed := lines.flatMap fun line =>
    if line == ['.', '\n'] then "..\n.\ns/.//\na\n".toList else line
  let close := if lines.getLast? == some ['.', '\n'] then [] else ['.', '\n']
  let pointed :=
    if lines.getLast? == some ['.', '\n'] then pointed.take (pointed.length - 2) else pointed
  rangeText c.first c.removed ++ letter c :: '\n' :: if lines.isEmpty then [] else pointed ++ close

/-- A change as instructions that count lines. -/
def countsText (c : Change) : List Char :=
  let instruction := fun (letter : Char) (line count : Nat) =>
    letter :: Text.decimal line ++ ' ' :: Line.ended (Text.decimal count)
  (if c.removed = 0 then [] else instruction 'd' (c.first + 1) c.removed) ++
    if c.added = 0 then []
    else instruction 'a' (c.first + c.removed) c.added ++ (t.added c).flatten

/-! ## Hunks -/

/-- Groups of changes, between which there are more lines than both of them show. -/
def groups (around : Nat) : List Change → List (List Change)
  | [] => []
  | c :: cs =>
      match groups around cs with
      | (next :: more) :: rest =>
          if next.first ≤ c.first + c.removed + 2 * around then (c :: next :: more) :: rest
          else [c] :: (next :: more) :: rest
      | rest => [c] :: rest

/-- A group of changes with the lines around it. -/
structure Hunk where
  first : Nat
  firstCount : Nat
  second : Nat
  secondCount : Nat
  changes : List Change

/-- The hunk of a group of changes. -/
def hunk (around : Nat) (changes : List Change) : Hunk :=
  let front := changes.headD { first := 0, removed := 0, second := 0, added := 0 }
  let back := changes.getLastD front
  let first := front.first - around
  let second := front.second - around
  { first, second, changes
    firstCount := min t.firsts.size (back.first + back.removed + around) - first
    secondCount := min t.seconds.size (back.second + back.added + around) - second }

/-- The lines of a hunk, the removed and the added ones in one list. -/
def unifiedLines (h : Hunk) : (next : Nat) → List Change → List Char
  | next, [] => allMarked [' '] (slice t.firsts next (h.first + h.firstCount - next))
  | next, c :: cs =>
      allMarked [' '] (slice t.firsts next (c.first - next)) ++ allMarked ['-'] (t.removed c) ++
        allMarked ['+'] (t.added c) ++ unifiedLines h (c.first + c.removed) cs

/-- A hunk with the removed and the added lines in one list. -/
def unifiedText (h : Hunk) : List Char :=
  "@@ -".toList ++ countText h.first h.firstCount ++ " +".toList ++
    countText h.second h.secondCount ++ " @@\n".toList ++ t.unifiedLines h h.first h.changes

/-- Lines from `start` up to `finish`, with the marks of those that are in one of the
given ranges. -/
def contextLines (lines : Array (List Char)) (finish : Nat) :
    (start : Nat) → List (Nat × Nat × List Char) → List Char
  | start, [] => allMarked [' ', ' '] (slice lines start (finish - start))
  | start, (first, count, mark) :: rest =>
      allMarked [' ', ' '] (slice lines start (first - start)) ++
        allMarked mark (slice lines first count) ++
        contextLines lines finish (first + count) rest

/-- A hunk with the old lines in front of the new ones. -/
def contextText (h : Hunk) : List Char :=
  let mark := fun (c : Change) (alone : List Char) =>
    if c.removed ≠ 0 ∧ c.added ≠ 0 then ['!', ' '] else alone
  let olds := h.changes.map fun c => (c.first, c.removed, mark c ['-', ' '])
  let news := h.changes.map fun c => (c.second, c.added, mark c ['+', ' '])
  let body := fun (lines : Array (List Char)) (start count : Nat)
      (ranges : List (Nat × Nat × List Char)) =>
    if ranges.all (·.2.1 == 0) then [] else contextLines lines (start + count) start ranges
  "***************\n*** ".toList ++ rangeText h.first h.firstCount ++ " ****\n".toList ++
    body t.firsts h.first h.firstCount olds ++
    "--- ".toList ++ rangeText h.second h.secondCount ++ " ----\n".toList ++
    body t.seconds h.second h.secondCount news

/-! ## Side by side -/

/-- The widths of half a line and of what is in front of the right half. -/
def halves (width : Nat) (tab : Nat) : Nat × Nat :=
  let sum := tab + 3
  let offset := width / 2 + sum / 2 + width % 2 * (sum % 2)
  let offset := offset - offset % tab
  let half := min (offset - 3) (width - offset)
  (half, if half = 0 then width else offset)

/-- Tabs and blanks that lead from one column to another. -/
def gap (tab : Nat) : Nat → (column target : Nat) → List Char
  | 0, _, _ => []
  | fuel + 1, column, target =>
      let stop := column + tab - column % tab
      if tab ≠ 1 ∧ stop ≤ target then '\t' :: gap tab fuel stop target
      else List.replicate (target - column) ' '

/-- What of a line fits into a width, and the column behind it. -/
def half (tab bound : Nat) : (column shown : Nat) → List Char → List Char × Nat
  | _, shown, [] => ([], shown)
  | column, shown, c :: cs =>
      if c == '\n' then ([], shown)
      else if c == '\t' then
        let stop := column + 8 - column % 8
        if column == shown then
          if tab = 1 then
            let stop' := min stop bound
            let (text, last) := half tab bound stop stop' cs
            (List.replicate (stop' - shown) ' ' ++ text, last)
          else if stop < bound then
            let (text, last) := half tab bound stop stop cs
            ('\t' :: text, last)
          else half tab bound stop shown cs
        else half tab bound stop shown cs
      else if column < bound then
        let (text, last) := half tab bound (column + 1) (column + 1) cs
        (c :: text, last)
      else half tab bound (column + 1) shown cs

/-- Two lines side by side, one of which may be missing, with a sign between them
unless they are equal. -/
def pairText (width tab : Nat) (left : Option (List Char)) (sign : Char)
    (right : Option (List Char)) : List Char :=
  let (size, offset) := halves width (if tab = 1 then 1 else 8)
  let isEnded := fun (line : Option (List Char)) => line.any (·.getLast? == some '\n')
  let (text, column) := half tab size 0 0 (left.getD [])
  let sign :=
    if sign == '|' && isEnded left != isEnded right then (if isEnded left then '/' else '\\')
    else sign
  let place := (size + offset - 1) / 2
  let (middle, column) :=
    if sign == ' ' then ([], column) else (gap tab place column place ++ [sign], place + 1)
  let behind :=
    match right with
    | none | some ['\n'] => []
    | some line => gap tab offset column offset ++ (half tab size 0 0 line).1
  text ++ middle ++ behind ++ if isEnded left || isEnded right then ['\n'] else []

/-- The lines of a change side by side: pairs as long as there are lines on both
sides. -/
def changeText (width tab : Nat) (c : Change) : List Char :=
  let olds := t.removed c
  let news := t.added c
  let pairs := (olds.zip news).flatMap fun (a, b) => pairText width tab (some a) '|' (some b)
  let added := (news.drop olds.length).flatMap fun b => pairText width tab none '>' (some b)
  let removed := (olds.drop news.length).flatMap fun a => pairText width tab (some a) '<' none
  pairs ++ added ++ removed

/-- Both texts side by side, from the given lines on. `isWhole` tells whether lines that
are equal are shown. -/
def sideBySideText (width tab : Nat) (isWhole : Bool) : (i j : Nat) → List Change → List Char
  | i, j, [] =>
      if isWhole then
        ((slice t.firsts i t.firsts.size).zip (slice t.seconds j t.seconds.size)).flatMap
          fun (a, b) => pairText width tab (some a) ' ' (some b)
      else []
  | i, j, c :: cs =>
      let same := if isWhole then
          ((slice t.firsts i (c.first - i)).zip (slice t.seconds j (c.second - j))).flatMap
            fun (a, b) => pairText width tab (some a) ' ' (some b)
        else []
      same ++ t.changeText width tab c ++
        sideBySideText width tab isWhole (c.first + c.removed) (c.second + c.added) cs

/-! ## All styles -/

/-- The report of changes. The titles of both texts stand in front of hunks. A change is
left out if it does not count, unless one that counts stands in the same hunk. -/
def report (style : Style) (tab : Nat) (isWhole : Bool) (titles : List Char × List Char)
    (counts : Change → Bool) (changes : List Change) : List Char :=
  let titled := fun (first second : String) (body : List Char) =>
    if body.isEmpty then []
    else Line.ended (first.toList ++ titles.1) ++ Line.ended (second.toList ++ titles.2) ++ body
  let counted := changes.filter counts
  let hunks := fun (around : Nat) =>
    ((groups around changes).filter (·.any counts)).map (t.hunk around)
  match style with
  | .commands => counted.flatMap t.commandText
  | .edits => counted.reverse.flatMap t.editText
  | .counts => counted.flatMap t.countsText
  | .unified around => titled "--- " "+++ " ((hunks around).flatMap t.unifiedText)
  | .context around => titled "*** " "--- " ((hunks around).flatMap t.contextText)
  | .sideBySide width => t.sideBySideText width tab isWhole 0 0 changes

end Texts

/-! ## Arguments -/

/-- The flags of the program that reports changes. -/
def table : FlagTable where
  plain := "qsreniwbBEZacuyNtTdlpf0123456789"
  valued := "UCWLxIFS"
  optional := "GO"
  long := [("brief", 'q'), ("report-identical-files", 's'), ("recursive", 'r'), ("ed", 'e'),
    ("rcs", 'n'), ("ignore-case", 'i'), ("ignore-all-space", 'w'), ("ignore-space-change", 'b'),
    ("ignore-blank-lines", 'B'), ("ignore-tab-expansion", 'E'), ("ignore-trailing-space", 'Z'),
    ("text", 'a'), ("side-by-side", 'y'), ("new-file", 'N'), ("expand-tabs", 't'),
    ("initial-tab", 'T'), ("minimal", 'd'), ("unified", 'G'), ("context", 'O'), ("width", 'W'),
    ("label", 'L'), ("exclude", 'x'), ("normal", 'M'), ("left-column", 'J'),
    ("suppress-common-lines", 'K'), ("strip-trailing-cr", 'R'), ("show-c-function", 'p'),
    ("ignore-matching-lines", 'I'), ("speed-large-files", 'H'), ("color", 'k')]
  isMixed := true

/-- The style that flags ask for. The number of lines around changes may also be given by
flags that are digits. -/
def styleOf? (f : Flags) : Option Style := do
  let digits := (f.given.map Prod.fst).filterMap Text.digit?
  let number? := if digits.isEmpty then none else some (Text.number digits)
  let sizes := (f.given.filter fun (c, value) =>
    (c == 'U' || c == 'C' || c == 'G' || c == 'O') && !value.isEmpty).map Prod.snd
  let numbers ← sizes.mapM fun cs => (Text.digits? cs).map Text.number
  let around := (numbers ++ number?.toList).foldl max 0
  let around := if numbers.isEmpty && number?.isNone then 3 else around
  if f.has 'u' || f.has 'U' || f.has 'G' then return .unified around
  else if f.has 'c' || f.has 'C' || f.has 'O' then return .context around
  else if f.has 'e' then return .edits
  else if f.has 'n' then return .counts
  else if f.has 'y' then return .sideBySide (← f.number? 'W' 130)
  else return .commands

/-- Is the character blank in a line? -/
def isSpace (c : Char) : Bool := c == ' ' || ('\t' ≤ c && c ≤ '\r')

/-- A text in which each run of blanks is one blank. -/
def squeezed : List Char → List Char
  | [] => []
  | c :: cs =>
      if isSpace c then
        match squeezed cs with
        | ' ' :: rest => ' ' :: rest
        | rest => ' ' :: rest
      else c :: squeezed cs

/-- A text in which blanks stand for tabs, from a column on. -/
def untabbed : Nat → List Char → List Char
  | _, [] => []
  | column, c :: cs =>
      if c == '\t' then List.replicate (8 - column % 8) ' ' ++ untabbed (column + 8 - column % 8) cs
      else c :: untabbed (column + 1) cs

/-- What of a line counts when lines are compared. -/
def keyOf (f : Flags) (line : List Char) : List Char :=
  let trimmed := fun (cs : List Char) => (cs.reverse.dropWhile isSpace).reverse
  let line :=
    if f.has 'R' && ['\n', '\r'].isPrefixOf line.reverse then line.dropLast.dropLast ++ ['\n']
    else line
  let line := if f.has 'i' then line.map Char.toLower else line
  if f.has 'w' then line.filter (!isSpace ·)
  else if f.has 'b' then trimmed (squeezed line)
  else
    let line := if f.has 'E' then untabbed 0 line else line
    if f.has 'Z' then trimmed line else line

end PlanOrbits.Shell.Difference
