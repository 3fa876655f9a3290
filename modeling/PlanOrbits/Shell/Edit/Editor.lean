import PlanOrbits.Shell.Edit.Sheet
import PlanOrbits.Shell.Line

/-!
# Editing texts

A text is edited line by line: each line is read into a space, the commands of the
script are run on the space one after the other, and at the end of the script the
space is printed. Commands can also read further lines, jump within the script, keep a
text on hold, and write to other places or read from them.

A step is the run of one command. It needs the lines that the command asks for
(`needsLine`), and it tells what comes next: the output of another script may be wanted,
which is no matter of the editing itself.
-/

namespace PlanOrbits.Shell.Edit

/-- How a text is edited. -/
structure Settings where
  /-- Do only commands print? -/
  isQuiet : Bool
  /-- The character behind each line. -/
  mark : Char
  /-- The width of the rows in which lines are listed; zero is no limit. -/
  width : Nat
  /-- Is nothing held back, and is the input read line by line? -/
  isDirect : Bool
  deriving Repr

/-- What is to be written behind the line. -/
inductive Queued where
  | text (cs : List Char)
  /-- The content that a file has then. -/
  | file (path : List Char)

/-! ## The state -/

/-- Until when a range goes on. -/
inductive Activity where
  /-- It has not begun yet. -/
  | inactive
  /-- It is over. -/
  | over
  | untilLine (n : Nat)
  /-- Until a line meets the address of the end. -/
  | untilAddress
  deriving DecidableEq, Repr

/-- The state of an editing. -/
structure Editor where
  commands : Array Command
  settings : Settings
  space : Space
  held : Space
  /-- The number of the line that was read last. -/
  line : Nat
  /-- The file of that line. -/
  file : List Char
  /-- Had the line in the space a line feed? -/
  isEnded : Bool
  /-- Had the line on hold a line feed? -/
  isHeldEnded : Bool
  /-- The lines to come, as far as they have been read. -/
  rest : List Row
  /-- Are these all that will come? -/
  isComplete : Bool
  output : Sheet
  /-- What was written to other places. -/
  sheets : List (Sink × Sheet)
  /-- The contents of files that may be read. -/
  sources : List (List Char × List Char)
  /-- What is left of files that are read by lines. -/
  readers : List (List Char × List Char)
  queue : List Queued
  hasReplaced : Bool
  lastPattern : Option Pattern
  /-- The ranges of the commands. -/
  ranges : Array Activity
  status : Nat

/-- What comes after a command. -/
inductive Continuation where
  | goOn (place : Nat)
  /-- The end of the script: the space is printed, and the next line is read. -/
  | endCycle
  /-- The next line is read. -/
  | drop
  /-- The script is run again without reading a line. -/
  | restart
  /-- There are no lines any more, or no more of them are wanted. -/
  | stop (isPrinting isFinal : Bool)
  /-- The output of another script is used. -/
  | execute (script : List Char) (use : List Char → Editor) (place : Nat)

namespace Editor

/-- The activities of ranges before the first line. -/
def startRanges (commands : List Command) : Array Activity :=
  (commands.map fun c =>
    match c.guard.first, c.guard.last with
    | some (.line 0), some _ => Activity.untilAddress
    | _, _ => .inactive).toArray

/-- The files whose contents come in front of the first line. -/
def firstFiles (commands : List Command) : List Queued :=
  commands.filterMap fun c =>
    match c.guard.first, c.guard.last, c.operation with
    | some (.line 0), none, .readFile path => some (.file path)
    | _, _, _ => none

/-- The state before the first line. -/
def start (commands : List Command) (settings : Settings)
    (sources : List (List Char × List Char)) : Editor :=
  { commands := commands.toArray, settings, space := .ofText [], held := .ofText [], line := 0
    file := [], isEnded := true, isHeldEnded := true, rest := [], isComplete := false
    output := .empty
    sheets := (commands.filterMap (·.operation.sink?)).eraseDups.map (·, .empty)
    sources, readers := sources, queue := firstFiles commands, hasReplaced := false,
    lastPattern := none
    ranges := startRanges commands, status := 0 }

variable (e : Editor)

/-- The state in front of other lines, which are counted from one again. -/
def restart : Editor :=
  { e with
    rest := [], isComplete := false, line := 0, held := .ofText [], isEnded := true
    isHeldEnded := true, readers := e.sources, ranges := startRanges e.commands.toList }

/-- The state with more lines to come. -/
def extend (rows : List Row) : Editor := { e with rest := e.rest ++ rows }

/-- Is the line the last one? -/
def isLast : Bool := e.rest.isEmpty

/-- Write a text as it is. -/
def write (text : List Char) : Editor := { e with output := e.output.write e.settings.mark text }

/-- Write to some place. -/
def writeTo (sink : Sink) (change : Sheet → Sheet) : Editor :=
  match sink with
  | .output => { e with output := change e.output }
  | sink =>
      { e with sheets := e.sheets.map fun (other, sheet) =>
          (other, if other = sink then change sheet else sheet) }

/-- Write a line to some place. A line without a line feed stays without one until
something else is written. -/
def writeLine (sink : Sink) (text : List Char) : Editor :=
  e.writeTo sink (Sheet.line e.settings.mark (!e.isEnded) text)

/-- Write a line. -/
def printLine (text : List Char) : Editor := e.writeLine .output text

/-- What is in a file: what was written to it and is not held back, or what was in it
before. -/
def content (path : List Char) : List Char :=
  match e.sheets.find? fun (sink, _) => sink = .file path with
  | some (_, sheet) => sheet.text.take (sheet.countReleased e.settings.isDirect)
  | none => (e.sources.lookup path).getD []

/-- Write what is to come behind the line. -/
def flush : Editor :=
  let write := fun (e : Editor) (q : Queued) =>
    match q with
    | .text cs => if cs.isEmpty then e else e.write cs
    | .file path => if (e.content path).isEmpty then e else e.write (e.content path)
  { e.queue.foldl write e with queue := [] }

/-- Read the next line, if there is one. -/
def takeLine? : Option (List Char × Editor) :=
  match e.rest with
  | [] => none
  | row :: rest =>
      some (row.text,
        { e with rest, isEnded := row.isEnded, file := row.file, line := e.line + 1 })

/-! ## Guards -/

/-- The pattern that is meant, for the text in which it is looked for. -/
def regex (r : Regex) : Pattern :=
  ((r.pattern.or e.lastPattern).getD .never).resolved e.space.text

/-- The state after a pattern was used. -/
def remember (r : Regex) : Editor := { e with lastPattern := r.pattern.or e.lastPattern }

/-- Does the line meet an address? -/
def meets : Address → Bool × Editor
  | .line n => (e.line == n, e)
  | .last => (e.isLast, e)
  | .step first step =>
      (if step = 0 then e.line == first else first ≤ e.line && (e.line - first) % step == 0, e)
  | .occurs r => ((e.regex r).occursIn e.space.text, e.remember r)

/-- The state with another activity of a range. -/
def setRange (place : Nat) (a : Activity) : Editor :=
  { e with ranges := e.ranges.setIfInBounds place a }

/-- Does a line meet the beginning of a range? A range that begins at a line with a number
also begins behind it, if that line was passed over, but not twice. -/
def begins (a : Address) (activity : Activity) : Bool × Editor :=
  match a with
  | .line n => (n ≤ e.line && activity == .inactive, e)
  | a => e.meets a

/-- Is the line the one at which a range begins? -/
def isFirst (a : Address) : Bool × Editor :=
  match a with
  | .line n => (e.line == n, e)
  | a => e.meets a

/-- How long a range goes on that begins here; it is over, if it is one line. -/
def rangeFrom : RangeEnd → Activity
  | .address (.line n) => if n ≤ e.line then .over else .untilLine n
  | .address .last => if e.isLast then .over else .untilAddress
  | .address _ => .untilAddress
  | .after n => if n = 0 then .over else .untilLine (e.line + n)
  | .multiple n => if n = 0 then .over else .untilLine ((e.line / n + 1) * n)

/-- Is the end of a range a line that lies behind? -/
def isPast : RangeEnd → Bool
  | .address (.line n) => n < e.line
  | _ => false

/-- Is a command run for the line? Also moves its range on. -/
def admits (place : Nat) (g : Guard) : Bool × Editor :=
  let (isMet, e) :=
    match g.first, g.last with
    | none, _ => (true, e)
    | some a, none => e.meets a
    | some a, some behind =>
        match e.ranges.getD place .inactive with
        | .untilLine n =>
            let e := if n ≤ e.line then e.setRange place .over else e
            if e.isPast behind then e.isFirst a else (true, e)
        | .untilAddress =>
            match behind with
            | .address b =>
                let (isMet, e) := e.meets b
                (true, if isMet then e.setRange place .over else e)
            | _ => (true, e)
        | activity =>
            let (isMet, e) := e.begins a activity
            if !isMet then (false, e)
            else
              let e := e.setRange place (e.rangeFrom behind)
              if e.isPast behind then e.isFirst a else (true, e)
  (isMet != g.isNegated, e)

/-! ## Substitutions -/

/-- Change the case of a character. -/
def Casing.apply : Casing → Char → Char
  | .keep, c => c
  | .upper, c => c.toUpper
  | .lower, c => c.toLower

/-- The text that is put in the place of an occurrence. The case of the next character is
changed where there is one: not behind a change of the case of all that follows. -/
def replacement (o : Pattern.Occurrence) :
    (lasting : Casing) → (once : Option Casing) → List Part → List Char
  | _, _, [] => []
  | _, _, .casing c :: parts => replacement o c none parts
  | lasting, _, .nextCasing c :: parts => replacement o lasting (some c) parts
  | lasting, once, .text cs :: parts => put lasting once cs parts
  | lasting, once, .group 0 :: parts => put lasting once o.text parts
  | lasting, once, .group n :: parts => put lasting once ((o.groups.lookup n).getD []) parts
where
  /-- Put a text in front of the rest. -/
  put (lasting : Casing) (once : Option Casing) (cs : List Char) (parts : List Part) : List Char :=
    match cs with
    | [] => replacement o lasting once parts
    | c :: cs =>
        Casing.apply (once.getD lasting) c :: cs.map (Casing.apply lasting) ++
          replacement o lasting none parts

/-- Replace occurrences in the rest of a text; `count` of them came before, and
`last` is the character in front of it. An empty occurrence right behind another one
does not count. -/
def replace (s : Substitution) (p : Pattern) :
    Nat → (count : Nat) → (last : Option Char) → (isBehind : Bool) → List Char →
      List Char × Bool
  | 0, _, _, _, text => (text, false)
  | fuel + 1, count, last, isBehind, text =>
      match p.occurrence? last text with
      | none => (text, false)
      | some o =>
          if o.text.isEmpty && o.before.isEmpty && isBehind then
            match text with
            | [] => ([], false)
            | c :: cs =>
                let (rest, isDone) := replace s p fuel count (some c) false cs
                (c :: rest, isDone)
          else
            let count := count + 1
            let isChosen := s.first ≤ count
            let new := if isChosen then replacement o .keep none s.parts else o.text
            if isChosen && !s.isGlobal then (o.before ++ new ++ o.rest, true)
            else
              let (rest, isDone) := replace s p fuel count (o.last? last) true o.rest
              (o.before ++ new ++ rest, isChosen || isDone)

/-- The state after a line was changed by a substitution: it is printed and written as
asked for. -/
def announce (s : Substitution) : Editor :=
  let e := if s.isPrinted then e.printLine e.space.text else e
  s.sink.elim e fun sink => e.writeLine sink e.space.text

/-- The output of a script without the line feed at its end. -/
def withoutMark (text : List Char) : List Char :=
  if text.getLast? == some e.settings.mark then text.dropLast else text

/-- Run a substitution, and go on at a place. -/
def substitute (s : Substitution) (place : Nat) : Editor × Continuation :=
  let p := e.regex s.regex
  let e := e.remember s.regex
  let old := e.space.text
  let (text, isDone) := replace s p (2 * old.length + 2) 0 none false old
  if !isDone then (e, .goOn place)
  else
    let e := { e with space := .ofText text, hasReplaced := true }
    if s.isExecuted then
      (e, .execute text (fun text => { e with space := .ofText (e.withoutMark text) }.announce s)
        place)
    else (e.announce s, .goOn place)

/-! ## Commands -/

/-- A character in signs that can be seen. -/
def visible (c : Char) : List Char :=
  match c with
  | '\\' => ['\\', '\\']
  | '\t' => ['\\', 't']
  | '\n' => ['\\', 'n']
  | '\r' => ['\\', 'r']
  | '\x07' => ['\\', 'a']
  | '\x08' => ['\\', 'b']
  | '\x0c' => ['\\', 'f']
  | '\x0b' => ['\\', 'v']
  | c =>
      if ' ' ≤ c && c ≤ '~' then [c]
      else
        let digits := Nat.toDigits 8 c.toNat
        '\\' :: List.replicate (3 - digits.length) '0' ++ digits

/-- Signs in rows of a given width, each but the last with a backslash at its end;
`column` of them stand in the row already. -/
def inRows (mark : Char) (width : Nat) (column : Nat) : List (List Char) → List Char
  | [] => ['$', mark]
  | sign :: signs =>
      if width != 0 && width - 1 < column + sign.length then
        '\\' :: mark :: sign ++ inRows mark width sign.length signs
      else sign ++ inRows mark width (column + sign.length) signs

/-- Write the first of several lines to some place, or the line if there is only one. -/
def writeFirstLine (sink : Sink) : Editor :=
  let mark := e.settings.mark
  let text := e.space.text
  let line := text.takeWhile (· != mark)
  e.writeTo sink (Sheet.line mark (!e.isEnded && line.length = text.length) line)

/-- A text of the script as it is written in the place of a line: it ends as a line does. -/
def asLine (text : List Char) : List Char :=
  if text.isEmpty then [] else text.dropLast ++ [e.settings.mark]

/-- Take the next line of a file that is read by lines. -/
def takeFrom (path : List Char) : List Char × Editor :=
  let text := (e.readers.lookup path).getD []
  let line := text.takeWhile (· != e.settings.mark)
  let size := min text.length (line.length + 1)
  (text.take size,
    { e with readers := e.readers.map fun (other, text) =>
        (other, if other == path then text.drop size else text) })

/-- Run the operation of the command at a place. -/
def operate (place : Nat) : Operation → Editor × Continuation
  | .openBlock _ | .closeBlock | .label _ => (e, .goOn (place + 1))
  | .substitute s => e.substitute s (place + 1)
  | .transliterate images =>
      ({ e with space := .ofText (e.space.text.map fun c => (images.lookup c).getD c) },
        .goOn (place + 1))
  | .append text => ({ e with queue := e.queue ++ [.text text] }, .goOn (place + 1))
  | .insert text => (if text.isEmpty then e else e.write (e.asLine text), .goOn (place + 1))
  | .change text =>
      let isBehind := [Activity.inactive, .over].contains (e.ranges.getD place .inactive)
      if isBehind && !text.isEmpty then (e.write (e.asLine text), .drop) else (e, .drop)
  | .delete => (e, .drop)
  | .deleteFirst =>
      match e.space.text.dropWhile (· != e.settings.mark) with
      | [] => (e, .drop)
      | _ :: rest => ({ e with space := .ofText rest }, .restart)
  | .print => (e.printLine e.space.text, .goOn (place + 1))
  | .printFirst => (e.writeFirstLine .output, .goOn (place + 1))
  | .printNumber => (e.write (Text.decimal e.line ++ [e.settings.mark]), .goOn (place + 1))
  | .printName => (e.write (e.file ++ [e.settings.mark]), .goOn (place + 1))
  | .list width =>
      let signs := e.space.text.map visible
      (e.write (inRows e.settings.mark (width.getD e.settings.width) 0 signs), .goOn (place + 1))
  | .next =>
      match e.takeLine? with
      | none => (e, .stop true false)
      | some _ =>
          let e := if e.settings.isQuiet then e else e.printLine e.space.text
          match e.flush.takeLine? with
          | some (line, e) => ({ e with space := .ofText line }, .goOn (place + 1))
          | none => (e, .stop false false)
  | .appendNext =>
      match e.flush.takeLine? with
      | none => (e, .stop true false)
      | some (line, e) => ({ e with space := e.space.add e.settings.mark line }, .goOn (place + 1))
  | .hold => ({ e with held := e.space, isHeldEnded := e.isEnded }, .goOn (place + 1))
  | .holdBehind =>
      ({ e with held := e.held.add e.settings.mark e.space.text, isHeldEnded := e.isEnded },
        .goOn (place + 1))
  | .get => ({ e with space := e.held, isEnded := e.isHeldEnded }, .goOn (place + 1))
  | .getBehind =>
      ({ e with
          space := .ofText (e.space.text ++ e.settings.mark :: e.held.text)
          isEnded := e.isHeldEnded },
        .goOn (place + 1))
  | .exchange =>
      ({ e with
          space := e.held, held := e.space, isEnded := e.isHeldEnded, isHeldEnded := e.isEnded },
        .goOn (place + 1))
  | .clear => ({ e with space := .ofText [] }, .goOn (place + 1))
  | .branch condition target =>
      let isTaken := condition.all (· == e.hasReplaced)
      let e := if condition.isSome then { e with hasReplaced := false } else e
      (e, if isTaken then target.elim .endCycle .goOn else .goOn (place + 1))
  | .quit isPrinting status =>
      ({ e with status, queue := if isPrinting then e.queue else [] }, .stop isPrinting true)
  | .readFile path => ({ e with queue := e.queue ++ [.file path] }, .goOn (place + 1))
  | .readLine path =>
      let (line, e) := e.takeFrom path
      ({ e with queue := e.queue ++ [.text line] }, .goOn (place + 1))
  | .writeFile sink => (e.writeLine sink e.space.text, .goOn (place + 1))
  | .writeFirst sink => (e.writeFirstLine sink, .goOn (place + 1))
  | .execute script =>
      if script.isEmpty then
        (e, .execute e.space.text
          (fun text => { e with space := .ofText (e.withoutMark text) }) (place + 1))
      else (e, .execute script e.write (place + 1))

/-- Does a command ask whether there is another line? -/
def asksForLine (c : Command) : Bool :=
  let isLastLine := fun (a : Address) => match a with | .last => true | _ => false
  c.guard.first.any isLastLine ||
    (match c.guard.last with
      | some (.address a) => isLastLine a
      | _ => false) ||
    match c.operation with
    | .next | .appendNext => true
    | _ => false

/-- Does the command at a place ask for a line that has not been read? -/
def needsLine (place : Nat) : Bool :=
  e.rest.isEmpty && !e.isComplete && (e.commands[place]?).any asksForLine

/-- Run the command at a place. -/
def step (place : Nat) : Editor × Continuation :=
  match e.commands[place]? with
  | none => (e, .endCycle)
  | some c =>
      let (isAdmitted, e) := e.admits place c.guard
      if isAdmitted then e.operate place c.operation
      else
        match c.operation with
        | .openBlock behind => (e, .goOn behind)
        | _ => (e, .goOn (place + 1))

/-- Print the space, unless only commands print. -/
def printSpace : Editor := if e.settings.isQuiet then e else e.printLine e.space.text

/-- The state after the script has come to its end for a line, or after it was left. A
line feed that is missing is written if the editing is ended by a command. -/
def settled : Continuation → Editor
  | .endCycle | .stop true false => e.printSpace.flush
  | .stop true true =>
      let e := e.printSpace.flush
      if e.output.owesBreak then e.write [] else e
  | _ => e.flush

/-- The state at the beginning of the script for the next line, if there is one. -/
def beginCycle? : Option Editor :=
  e.takeLine?.map fun (line, e) => { e with space := .ofText line, hasReplaced := false }

end Editor

end PlanOrbits.Shell.Edit
