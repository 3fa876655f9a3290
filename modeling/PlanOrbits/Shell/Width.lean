import PlanOrbits.Shell.Flags
import PlanOrbits.Shell.Line

/-!
# Widths and tab stops

How far to the right a character stands. A tab goes to the next stop, which is a
multiple of a number or one of a list. Tabs are replaced by blanks, blanks by tabs, and
lines that are too wide are cut.
-/

namespace PlanOrbits.Shell

/-! ## Stops -/

/-- The places to which tabs go: those that are listed, and behind them perhaps every
so many columns from a place on. -/
structure TabStops where
  listed : List Nat
  /-- The place from which stops are counted behind the list, and their distance. -/
  behind : Option (Nat × Nat)
  deriving DecidableEq, Repr

namespace TabStops

/-- A stop every so many columns. -/
def every (distance : Nat) : TabStops := { listed := [], behind := some (0, distance) }

/-- The next stop behind a column, if there is one. -/
def next? (t : TabStops) (column : Nat) : Option Nat :=
  match t.listed.find? (column < ·) with
  | some stop => some stop
  | none => t.behind.map fun (start, distance) =>
      column + (distance - (column - start) % distance)

/-- Do the numbers of a list become larger and larger? -/
def isRising (ns : List Nat) : Bool := (ns.zip (ns.drop 1)).all fun (a, b) => a < b

/-- The stops that a text describes. One number is a distance, several are places; the
last of several may be a distance for what is behind, counted from the beginning or from
the last place. -/
def ofChars? (cs : List Char) : Option TabStops := do
  let words := (Text.pieces (fun c => c == ',' || c == ' ') cs).filter (!·.isEmpty)
  let number := fun (ds : List Char) => ((Text.digits? ds).map Text.number).filter (0 < ·)
  match words.reverse with
  | [] => return every 8
  | [word] => return every (← number (if word.head? == some '/' || word.head? == some '+'
      then word.tail else word))
  | last :: others =>
      let front ← others.reverse.mapM number
      if !isRising front then none
      match last with
      | '/' :: ds => return { listed := front, behind := some (0, ← number ds) }
      | '+' :: ds => return { listed := front, behind := some (front.getLast?.getD 0, ← number ds) }
      | ds =>
          let listed := front ++ [← number ds]
          if isRising listed then return { listed, behind := none } else none

end TabStops

/-! ## Tabs and blanks -/

/-- Replace the tabs of a line by blanks, from a column on; perhaps only those in front of
everything else. Behind the last stop a tab is one blank. -/
def TabStops.expand (t : TabStops) (isInitial : Bool) : (column : Nat) → List Char → List Char
  | _, [] => []
  | column, c :: cs =>
      if c == '\t' then
        let stop := (t.next? column).getD (column + 1)
        List.replicate (stop - column) ' ' ++ expand t isInitial stop cs
      else if isInitial && c != ' ' then c :: cs
      else c :: expand t isInitial (if c == '\x08' then column - 1 else column + 1) cs

/-- How blanks are replaced by tabs: the column, and the blanks of which it is not yet
known whether a tab takes their place. -/
structure Unexpansion where
  column : Nat
  pending : List Char
  /-- Is the first of them one blank in front of a stop? -/
  isOneBeforeStop : Bool
  wasBlank : Bool
  /-- Are blanks still replaced? -/
  isActive : Bool

namespace Unexpansion

/-- The state at the beginning of a line. -/
def start : Unexpansion :=
  { column := 0, pending := [], isOneBeforeStop := false, wasBlank := true, isActive := true }

variable (u : Unexpansion)

/-- The blanks that are pending, as they are written. -/
def flushed : List Char :=
  match u.pending with
  | _ :: second :: rest => if u.isOneBeforeStop then '\t' :: second :: rest else u.pending
  | pending => pending

/-- The state behind a character that is written, and what is written. -/
def put (isAll isBlank : Bool) (column : Nat) (c : Char) : List Char × Unexpansion :=
  (u.flushed ++ [c],
    { column, pending := [], isOneBeforeStop := false, wasBlank := isBlank
      isActive := u.isActive && (isAll || isBlank) })

/-- What is written for a character, and the state behind it. -/
def step (t : TabStops) (isAll : Bool) (c : Char) : List Char × Unexpansion :=
  if !u.isActive then ([c], u)
  else if c == ' ' || c == '\t' then
    match t.next? u.column with
    | none => { u with isActive := false }.put isAll true u.column c
    | some stop =>
        let keep := fun (pending : List Char) => if u.isOneBeforeStop then pending.take 1 else []
        if c == '\t' then
          { u with pending := keep (if u.pending.isEmpty then [] else '\t' :: u.pending.tail) }.put
            isAll true stop '\t'
        else if u.wasBlank && u.column + 1 == stop then
          { u with pending := keep ('\t' :: u.pending.tail) }.put isAll true stop '\t'
        else
          ([], { u with
            column := u.column + 1, pending := u.pending ++ [c], wasBlank := true
            isOneBeforeStop := u.isOneBeforeStop || u.column + 1 == stop })
  else u.put isAll false (if c == '\x08' then u.column - 1 else u.column + 1) c

/-- Replace the blanks of a line by tabs. -/
def line (t : TabStops) (isAll : Bool) (u : Unexpansion) : List Char → List Char
  | [] => u.flushed
  | c :: cs =>
      let (written, u) := u.step t isAll c
      written ++ line t isAll u cs

end Unexpansion

/-! ## Folding -/

/-- How lines are cut. -/
structure Folding where
  width : Nat
  /-- Does every byte count as one column? -/
  countsBytes : Bool
  /-- Are lines cut behind blanks where that is possible? -/
  isAtBlanks : Bool

namespace Folding

variable (f : Folding)

/-- The column behind a character. -/
def advance (column : Nat) (c : Char) : Nat :=
  if f.countsBytes then column + 1
  else if c == '\x08' then column - 1
  else if c == '\r' then 0
  else if c == '\t' then column + (8 - column % 8)
  else column + 1

/-- The column behind a text. -/
def widthOf (cs : List Char) : Nat := cs.foldl f.advance 0

/-- A line up to its last blank, and what is behind it. -/
def cutAtBlank? (row : List Char) : Option (List Char × List Char) :=
  let behind := row.reverse.takeWhile fun c => c != ' ' && c != '\t'
  if behind.length == row.length then none
  else some (row.take (row.length - behind.length), behind.reverse)

/-- The rows of a line. `row` is the beginning of the row, and `column` its width. -/
def rows : Nat → (row : List Char) → (column : Nat) → List Char → List (List Char)
  | 0, row, _, _ => [row]
  | _, row, _, [] => [row]
  | fuel + 1, row, column, c :: cs =>
      let next := f.advance column c
      if next ≤ f.width then rows fuel (row ++ [c]) next cs
      else
        match if f.isAtBlanks then cutAtBlank? row else none with
        | some (front, behind) => front :: rows fuel behind (f.widthOf behind) (c :: cs)
        | none =>
            if row.isEmpty then rows fuel [c] next cs
            else row :: rows fuel [] 0 (c :: cs)

/-- The text with its lines cut. -/
def run (text : List Char) : List Char :=
  (Line.withEnds text).flatMap fun line =>
    let isEnded := line.getLast? == some '\n'
    let cs := if isEnded then line.dropLast else line
    List.intercalate ['\n'] (f.rows (2 * cs.length + 1) [] 0 cs) ++ if isEnded then ['\n'] else []

end Folding

/-! ## Arguments -/

namespace Width

/-- The flags of the filters that replace tabs and blanks by each other. -/
def tabTable : FlagTable where
  plain := "iaF"
  valued := "t"
  long := [("tabs", 't'), ("initial", 'i'), ("all", 'a'), ("first-only", 'F')]
  isMixed := true

/-- Arguments in which numbers behind a dash have the letter for tab stops. -/
def withLetters (args : List (List Char)) : List (List Char) :=
  args.map fun arg =>
    match arg with
    | '-' :: c :: cs => if Text.isDigit c then '-' :: 't' :: c :: cs else arg
    | _ => arg

/-- The flags among arguments, and the tab stops that they describe. -/
def tabsOfArgs? (args : List (List Char)) : Option (Flags × TabStops) := do
  let f ← Flags.ofArgs? tabTable (withLetters args)
  return (f, ← TabStops.ofChars? (List.intercalate [','] (f.values 't')))

/-- The text with blanks in the place of tabs. -/
def expand? (args : List (List Char)) (text : List Char) : Option Filtered := do
  let (f, t) ← tabsOfArgs? args
  return ((Line.withEnds text).flatMap (t.expand (f.has 'i') 0), true)

/-- The text with tabs in the place of blanks. -/
def unexpand? (args : List (List Char)) (text : List Char) : Option Filtered := do
  let (f, t) ← tabsOfArgs? args
  let isAll := (f.has 'a' || f.has 't') && !f.has 'F'
  return ((Line.withEnds text).flatMap (Unexpansion.start.line t isAll), true)

/-- The flags of the filter that cuts long lines. -/
def foldTable : FlagTable where
  plain := "bs"
  valued := "w"
  long := [("width", 'w'), ("bytes", 'b'), ("spaces", 's')]
  isMixed := true

/-- The folding that flags describe. -/
def foldOfArgs? (args : List (List Char)) : Option (Flags × Folding) := do
  let args := args.map fun arg =>
    match arg with
    | '-' :: c :: cs => if (c :: cs).all Text.isDigit then '-' :: 'w' :: c :: cs else arg
    | _ => arg
  let f ← Flags.ofArgs? foldTable args
  let width ← (f.number? 'w' 80).filter (0 < ·)
  return (f, { width, countsBytes := f.has 'b', isAtBlanks := f.has 's' })

/-- The text with its long lines cut. -/
def fold? (args : List (List Char)) (text : List Char) : Option Filtered := do
  let (_, f) ← foldOfArgs? args
  return (f.run text, true)

end Width

end PlanOrbits.Shell
