import PlanOrbits.Shell.CharSet
import PlanOrbits.Shell.Columns
import PlanOrbits.Shell.Filling
import PlanOrbits.Shell.Precedence
import PlanOrbits.Shell.Repetition
import PlanOrbits.Shell.Scaling
import PlanOrbits.Shell.Selection
import PlanOrbits.Shell.Splitting
import PlanOrbits.Shell.Sorting
import PlanOrbits.Shell.Utility.Paths
import PlanOrbits.Shell.Width
import PlanOrbits.Shell.Wildcard

/-!
# Programs that go through texts

The filters as programs: what their arguments say, which files they read, what
stands in front of the parts of several files, and the status at the end.
-/

namespace PlanOrbits.Shell.Action

variable {m : Type → Type} [Monad m] [Storage m]

/-! ## Copying -/

/-- Show files one behind the other. -/
def cat (args : List (List Char)) : Action m Unit := do
  match Flags.ofArgs? Show.table args with
  | none => finish 1
  | some f =>
      let paths := if f.operands.isEmpty then [['-']] else f.operands
      if f.given.all (·.1 == 'u') then
        let results ← paths.mapM fun path => do
          if path == ['-'] then return (← copyInput patience []).2
          else
            match ← operandText? "cat" path with
            | some text => tell text
            | none => return false
        succeed (results.all (·))
      else filtered "cat" 1 paths fun text => some (Show.run f text, true)

/-- The flags of the program that copies its input into files. -/
def teeTable : FlagTable where
  plain := "aip"
  valued := ""
  long := [("append", 'a'), ("ignore-interrupts", 'i')]
  isMixed := true

/-- Copy the input into files and to the output. -/
def tee (args : List (List Char)) : Action m Unit := do
  match Flags.ofArgs? teeTable args with
  | none => finish 1
  | some f =>
      let (text, isCopied) ← copyInput patience []
      let results ← f.operands.mapM fun path => do
        if path == ['-'] || path == "/dev/stdout".toList then tell text
        else if path == "/dev/stderr".toList then put 2 text
        else
          let old ← if f.has 'a' then readFile? path else pure none
          writeFile path (old.getD [] ++ text)
      succeed (isCopied && results.all (·))

/-! ## Parts -/

/-- Texts of several files, each below a line with its name. -/
def withTitles (isTitled : Bool) (texts : List (List Char × List Char)) : List Char :=
  if isTitled then
    let parts := texts.map fun (name, text) =>
      let name := if name == ['-'] then "standard input".toList else name
      "==> ".toList ++ name ++ " <==\n".toList ++ text
    List.intercalate ['\n'] parts
  else texts.flatMap Prod.snd

/-- The beginning of the input. Of the input no more blocks are read than needed, and what
is too much is given back where that is possible. -/
def frontOfInput (p : Extract.Part) : Nat → List Char → Action m (List Char)
  | 0, text => return p.front text
  | fuel + 1, text => do
      let present := if p.isLines then text.count '\n' else text.length
      let front := p.front text
      if p.count ≤ present then
        giveBack (text.drop front.length)
        return front
      let size := if p.isLines then 8192 else min 8192 (p.count - present)
      match ← takeBlock 0 size with
      | none => return front
      | some block => frontOfInput p fuel (text ++ block)

/-- Take parts of files. -/
def extract (program : String) (isFront : Bool) (args : List (List Char)) : Action m Unit := do
  match Extract.ofArgs? isFront args with
  | none => finish 1
  | some (p, f) =>
      let paths := if f.operands.isEmpty then [['-']] else f.operands
      let texts ← paths.mapM fun path => do
        if isFront && path == ['-'] && p.sign != some '-' then
          return some (path, ← frontOfInput p patience [])
        else
          match ← operandText? program path with
          | some text => return some (path, if isFront then p.front text else p.back text)
          | none => return none
      let isTitled := (1 < paths.length || f.has 'v') && !f.has 'q'
      let isWritten ← tell (withTitles isTitled (texts.filterMap id))
      succeed (isWritten && texts.all Option.isSome)

/-! ## Selecting and replacing -/

/-- The files in a directory, and those in the directories in it, but for those that
flags leave out. The path of the directory stands in front of their names, unless it is
empty. -/
def filesBelow (f : Flags) : Nat → (path : List Char) → Action m (List (List Char))
  | 0, _ => return []
  | fuel + 1, path => do
      let matchesAny := fun (c : Char) (name : List Char) =>
        (f.values c).any fun cs => (Pattern.ofWildcard cs).matchesAll name
      let names := (← entryNames? (if path.isEmpty then ['.'] else path)).getD []
      let paths ← names.mapM fun name => do
        let inner := if path.isEmpty then name else inDirectory path name
        match (← entry? (f.has 'R') inner).map Entry.kind with
        | some .directory =>
            if matchesAny '4' name then return [] else filesBelow f fuel inner
        | some .file =>
            let isLeftOut := matchesAny '3' name || f.has '2' && !matchesAny '2' name
            return if isLeftOut then [] else [inner]
        | _ => return []
      return paths.flatten

/-- The files that are gone through: directories stand for the files in them if a flag
says so. -/
def selectedPaths (f : Flags) (paths : List (List Char)) : Action m (List (List Char)) := do
  if f.has 'r' || f.has 'R' then
    if paths.isEmpty then filesBelow f 64 []
    else
      let below ← paths.mapM fun path => do
        if ← isDirectory path then filesBelow f 64 path else return [path]
      return below.flatten
  else if f.value? 'd' == some "skip".toList then
    paths.filterM fun path => return !(← isDirectory path)
  else return if paths.isEmpty then [['-']] else paths

/-- Select lines of files. -/
def select (isExtended isLiteral : Bool) (args : List (List Char)) : Action m Unit := do
  match Selection.flags? isExtended isLiteral args with
  | none => finish 2
  | some f =>
      let listed ←
        match f.values 'f' with
        | [] => pure (some none)
        | files => do
            let texts ← files.mapM (operandText? "grep")
            pure ((texts.mapM id).map fun texts => some (texts.flatMap Line.all))
      match listed.bind (Selection.ofFlags? f) with
      | none => finish 2
      | some (s, operands) =>
          let paths ← selectedPaths f operands
          let isDeep := f.has 'r' || f.has 'R'
          let isNamed := (1 < operands.length || isDeep &&
            !(operands.length == 1 && paths == operands) || f.has 'H') && !f.has 'h'
          let results ← paths.mapM fun path => do
            let text? ←
              if f.has 's' && !(path == ['-'] || (← isThere path)) then pure none
              else operandText? "grep" path
            match text? with
            | none => return (false, none)
            | some text =>
                let name :=
                  if path == ['-'] then (f.value? '1').getD "(standard input)".toList else path
                let finding := s.run isNamed name text
                if path == ['-'] && f.has 'm' then giveBack finding.rest
                say finding.output
                if finding.isFound && s.isHidden text && !(['q', 'l', 'L', 'c', 'I'].any f.has) then
                  report "grep" (shown name ++ ": binary file matches")
                return (finding.isFound, some ())
          let isFound := results.any Prod.fst
          let isRead := results.all (·.2.isSome)
          if isRead || f.has 'q' && isFound then succeed isFound else finish 2

/-- Replace, delete or squeeze the characters of the input. -/
def replaceChars (args : List (List Char)) : Action m Unit := do
  match replaceChars? args [] with
  | none => finish 1
  | some _ => filtered "tr" 1 [] (replaceChars? args)

/-! ## Ordering -/

/-- Sort the lines of files. -/
def sort (args : List (List Char)) : Action m Unit := do
  match Sorting.ofArgs? args with
  | none => finish 2
  | some (s, paths) =>
      let (texts, isRead) ← inputs "sort" paths
      let (output, isSorted) := s.run (texts.map Prod.snd)
      if !isRead then finish 2
      else
        match s.flags.value? 'o' with
        | some path => succeed (← writeFile path output)
        | none =>
            let isWritten ← tell output
            if isWritten then succeed isSorted else finish 2

/-- Join equal neighbours. A second operand names a file for the output. -/
def joinEqual (args : List (List Char)) : Action m Unit := do
  match Repetition.flags? args with
  | none => finish 1
  | some f =>
      match f.operands with
      | [path, target] =>
          match ← operandText? "uniq" path with
          | none => finish 1
          | some text => succeed (← writeFile target ((Repetition.run? args text).elim [] Prod.fst))
      | paths => filtered "uniq" 1 (paths.take 1) (Repetition.run? args)

/-! ## Columns -/

/-- A filter whose flags are given by a table. -/
def columns (program : String) (t : FlagTable) (args : List (List Char))
    (filter? : List (List Char) → List Char → Option Filtered) : Action m Unit := do
  match Flags.ofArgs? t args with
  | none => finish 1
  | some f =>
      if (filter? args []).isNone then finish 1
      else filtered program 1 f.operands (filter? args)

/-- Put the lines of files side by side. The input may be named several times, and is
then dealt out line by line. -/
def paste (args : List (List Char)) : Action m Unit := do
  match Flags.ofArgs? Paste.table args with
  | none => finish 1
  | some f =>
      let separators := Paste.readSeparators ((f.value? 'd').getD ['\t'])
      let paths := if f.operands.isEmpty then [['-']] else f.operands
      let (texts, isRead) ← inputs "paste" (paths.eraseDups)
      let dashes := paths.count ['-']
      let dealt := (List.range paths.length).zip paths |>.map fun (n, path) =>
        let lines := Line.all ((texts.lookup path).getD [])
        if path == ['-'] && !f.has 's' then
          Splitting.everyNth dashes ((paths.take n).count ['-']) lines
        else lines
      let isWritten ← tell (Line.join (Paste.lines (f.has 's') separators dealt))
      succeed (isRead && isWritten)

/-- Cut long lines, and replace tabs and blanks by each other. -/
def layOut (program : String) (paths? : List (List Char) → Option (List (List Char)))
    (filter? : List (List Char) → List Char → Option Filtered) (args : List (List Char)) :
    Action m Unit := do
  match paths? args with
  | none => finish 1
  | some paths => filtered program 1 paths (filter? args)

/-- Fill the paragraphs of files. -/
def fillParagraphs (args : List (List Char)) : Action m Unit := do
  match Filling.ofArgs? args with
  | none => finish 1
  | some (s, paths) => filtered "fmt" 1 paths fun text => some (Filling.run s text, true)

/-- A filter without flags. -/
def plainFilter (program : String) (filter : List Char → List Char) (args : List (List Char)) :
    Action m Unit :=
  filtered program 1 args fun text => some (filter text, true)

/-! ## Numbers -/

/-- Write numbers with units of their own. -/
def scaleNumbers (args : List (List Char)) : Action m Unit := do
  match (Flags.ofArgs? Scaling.table args).bind fun f => (Scaling.ofFlags? f).map (f, ·) with
  | none => finish 1
  | some (f, s) =>
      let lines ←
        if f.operands.isEmpty then Line.allEndedBy s.mark <$> takeInput else pure []
      let outcome := Scaling.run s f.operands lines
      say outcome.output
      outcome.messages.forM (report "numfmt")
      let isFailed := outcome.isAborted || s.invalid == "fail".toList && !outcome.messages.isEmpty
      finish (if isFailed then 2 else 0)

/-- The flags of the program that gives lines in any order. -/
def anyOrderTable : FlagTable where
  plain := "erz"
  valued := "inoR"
  long := [("echo", 'e'), ("input-range", 'i'), ("head-count", 'n'), ("output", 'o'),
    ("repeat", 'r'), ("zero-terminated", 'z'), ("random-source", 'R')]
  isMixed := true

/-- The lines that are given in any order: those of a file, the operands, or the numbers
of a range. -/
def linesInAnyOrder? (f : Flags) : Action m (Option (List (List Char))) := do
  if f.has 'e' then return some f.operands
  match f.value? 'i' with
  | some range =>
      match (Text.cutAt? '-' range).bind fun (low, high) =>
          (Text.digits? low).bind fun low => (Text.digits? high).map fun high =>
            (Text.number low, Text.number high) with
      | some (low, high) =>
          return some ((List.range (high + 1 - low)).map fun n => Text.decimal (low + n))
      | none => return none
  | none =>
      let mark := if f.has 'z' then '\x00' else '\n'
      return (← operandText? "shuf" (f.operands.headD ['-'])).map (Line.allEndedBy mark)

/-- Give lines in any order; they stay in theirs. -/
def anyOrder (args : List (List Char)) : Action m Unit := do
  match Flags.ofArgs? anyOrderTable args with
  | none => finish 1
  | some f =>
      match ← linesInAnyOrder? f with
      | none => finish 1
      | some lines =>
          let count := (f.number? 'n' lines.length).getD lines.length
          let lines :=
            if f.has 'r' then ((List.replicate count lines).flatten).take count
            else lines.take count
          let text := Line.joinEndedBy (if f.has 'z' then '\x00' else '\n') lines
          match f.value? 'o' with
          | some path => succeed (← writeFile path text)
          | none => answer text

/-! ## Counting -/

/-- Count what is in files. The columns are as wide as the largest number of bytes can
be; only a single number stands without blanks in front. -/
def count (args : List (List Char)) : Action m Unit := do
  match Flags.ofArgs? Count.table args with
  | none => finish 1
  | some f =>
      let letters := Count.letters f
      let isPlain ← isInputFile
      let (texts, isRead) ← inputs "wc" f.operands
      let total := texts.foldl (fun n (_, text) => n + text.length) 0
      let isSizeKnown := if f.operands.isEmpty then isPlain else !f.operands.contains ['-']
      let width :=
        if f.operands.length ≤ 1 && letters.length == 1 then 1
        else max (if isSizeKnown then 1 else 7) (Text.decimal total).length
      let rows := texts.map fun (name, text) =>
        Count.row width (letters.map (Count.number · text))
          (if f.operands.isEmpty then [] else name)
      let sums := letters.map fun letter =>
        let numbers := texts.map fun (_, text) => Count.number letter text
        numbers.foldl (if letter == 'L' then max else (· + ·)) 0
      let last := if 1 < f.operands.length then Count.row width sums "total".toList else []
      let isWritten ← tell (rows.flatten ++ last)
      succeed (isRead && isWritten)

/-! ## All filters -/

/-- The filter with a name, if there is one. -/
def filter? (name : String) : Option (List (List Char) → Action m Unit) :=
  match name with
  | "cat" => some cat
  | "tee" => some tee
  | "head" => some (extract "head" true)
  | "tail" => some (extract "tail" false)
  | "grep" => some (select false false)
  | "egrep" => some (select true false)
  | "fgrep" => some (select false true)
  | "tr" => some replaceChars
  | "sort" => some sort
  | "uniq" => some joinEqual
  | "cut" => some fun args => columns "cut" Cut.table args Cut.run?
  | "nl" => some fun args => columns "nl" Numbering.table args Numbering.run?
  | "paste" => some paste
  | "fold" =>
      some (layOut "fold" (fun args => (Width.foldOfArgs? args).map (·.1.operands)) Width.fold?)
  | "expand" =>
      some (layOut "expand" (fun args => (Width.tabsOfArgs? args).map (·.1.operands)) Width.expand?)
  | "unexpand" =>
      some (layOut "unexpand" (fun args => (Width.tabsOfArgs? args).map (·.1.operands))
        Width.unexpand?)
  | "fmt" => some fillParagraphs
  | "tac" => some (plainFilter "tac" reverseLines)
  | "rev" => some (plainFilter "rev" reverseInLines)
  | "wc" => some count
  | "numfmt" => some scaleNumbers
  | "shuf" => some anyOrder
  | "more" => some cat
  | "tsort" => some fun args => filtered "tsort" 1 args Precedence.run?
  | _ => none

end PlanOrbits.Shell.Action
