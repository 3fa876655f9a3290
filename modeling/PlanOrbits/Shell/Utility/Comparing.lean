import PlanOrbits.Shell.Difference.Report
import PlanOrbits.Shell.Merging
import PlanOrbits.Shell.Utility.Files
import PlanOrbits.Shell.Wildcard

/-!
# Programs that compare files

Two files are merged line by line, joined by keys, compared byte by byte, or reported
to differ; two directories are compared file by file.
-/

namespace PlanOrbits.Shell.Action

variable {m : Type → Type} [Monad m] [Storage m]

/-- The texts of two files, if both can be read. -/
def bothTexts? (program : String) (first second : List Char) :
    Action m (Option (List Char × List Char)) := do
  let a ← operandText? program first
  let b ← operandText? program second
  return a.bind fun a => b.map fun b => (a, b)

/-- Run a filter on the texts of two files. -/
def filteredPair (program : String) (filter : List Char → List Char → Filtered)
    (operands : List (List Char)) : Action m Unit := do
  match operands with
  | [first, second] =>
      match ← bothTexts? program first second with
      | none => finish 1
      | some (a, b) =>
          let (output, isGood) := filter a b
          let isWritten ← tell output
          if !isGood then report program "input is not in sorted order"
          succeed (isGood && isWritten)
  | _ => finish 1

/-- Show which lines two sorted files have in common. -/
def showOverlap (args : List (List Char)) : Action m Unit := do
  match Flags.ofArgs? Overlap.table args with
  | none => finish 1
  | some f => filteredPair "comm" (Overlap.run f) f.operands

/-- Join the lines of two sorted files. -/
def join (args : List (List Char)) : Action m Unit := do
  match Joining.ofArgs? args with
  | none => finish 1
  | some (j, f, paths) => filteredPair "join" (j.run f) paths

/-! ## Differences -/

/-- What is compared, and how: the flags, and the arguments that hold them. -/
structure Comparison where
  flags : Flags
  style : Difference.Style
  options : List (List Char)

/-- The title of a file: its label, or its path and a time. -/
def Comparison.title (c : Comparison) (n : Nat) (path : List Char) : List Char :=
  match (c.flags.values 'L')[n]? with
  | some label => label
  | none => path ++ "\t1970-01-01 00:00:00.000000000 +0000".toList

/-- Report the changes between two texts. Tells whether there are any. -/
def reportChanges (c : Comparison) (isHeaded : Bool) (first second : List Char)
    (a b : List Char) : Action m Bool := do
  let f := c.flags
  let key := Difference.keyOf f
  -- An editor knows no lines without line feeds.
  let linesOf := fun (text : List Char) =>
    if c.style = .edits then (Line.all text).map Line.ended else Line.withEnds text
  let as := linesOf a
  let bs := linesOf b
  let t : Difference.Texts := { firsts := as.toArray, seconds := bs.toArray }
  let changes := Difference.changes key c.style.around as bs
  let isBlank := fun (line : List Char) =>
    line == ['\n'] || (f.has 'b' || f.has 'w') && line.all Difference.isSpace
  let counts := fun (change : Difference.Change) =>
    !(f.has 'B' && (t.removed change ++ t.added change).all isBlank)
  let isBinary := !f.has 'a' && (a.contains '\x00' || b.contains '\x00')
  let isChanged := if isBinary then a != b else changes.any counts
  let named := fun (word : String) (rest : String) =>
    say (word.toList ++ first ++ " and ".toList ++ second ++ rest.toList)
  if isChanged && (f.has 'q' || isBinary) then
    named (if f.has 'q' then "Files " else "Binary files ") " differ\n"
  else if !isChanged && f.has 's' then named "Files " " are identical\n"
  else
    let isWhole := !f.has 'K'
    let titles := (c.title 0 first, c.title 1 second)
    let text := t.report c.style (if f.has 't' then 1 else 8) isWhole titles counts changes
    if isHeaded && isChanged then
      say (Line.ended (List.intercalate [' '] ("diff".toList :: c.options ++ [first, second])))
    say text
  return isChanged

/-- Compare two files or directories. Gives the status: zero, if they are equal. -/
def comparePaths (c : Comparison) : Nat → (isInside : Bool) → (first second : List Char) →
    Action m Nat
  | 0, _, _, _ => return 2
  | fuel + 1, isInside, first, second => do
      let f := c.flags
      match ← isDirectory first, ← isDirectory second with
      | true, true =>
          if isInside && !f.has 'r' then
            say ("Common subdirectories: ".toList ++ first ++ " and ".toList ++ Line.ended second)
            return 0
          let excluded := (f.values 'x').map Pattern.ofWildcard
          let isKept := fun (name : List Char) =>
            !(excluded.any fun (p : Pattern) => p.matchesAll name)
          let olds := (← entries first).filter isKept
          let news := (← entries second).filter isKept
          let only := fun (path name : List Char) => do
            say ("Only in ".toList ++ path ++ ": ".toList ++ Line.ended name)
            return 1
          let statuses ← (Line.sorted (olds ++ news)).eraseDups.mapM fun name => do
            if !f.has 'N' && !news.contains name then only first name
            else if !f.has 'N' && !olds.contains name then only second name
            else comparePaths c fuel true (inDirectory first name) (inDirectory second name)
          return statuses.foldl max 0
      | true, false =>
          if isInside then
            say ("File ".toList ++ first ++ " is a directory while file ".toList ++ second ++
              " is a regular file\n".toList)
            return 1
          comparePaths c fuel false (inDirectory first (baseName second)) second
      | false, true =>
          if isInside then
            say ("File ".toList ++ first ++ " is a regular file while file ".toList ++ second ++
              " is a directory\n".toList)
            return 1
          comparePaths c fuel false first (inDirectory second (baseName first))
      | false, false =>
          let text? := fun (path : List Char) => do
            if isInside && f.has 'N' then return some ((← readFile? path).getD [])
            else operandText? "diff" path
          match ← text? first, ← text? second with
          | some a, some b =>
              return if ← reportChanges c isInside first second a b then 1 else 0
          | _, _ => return 2

/-- Report how two files or directories differ. -/
def showChanges (args : List (List Char)) : Action m Unit := do
  match Flags.ofArgs? Difference.table args with
  | none => finish 2
  | some f =>
      match Difference.styleOf? f, f.operands with
      | some style, [first, second] =>
          let options := args.filter fun arg => 2 ≤ arg.length && arg.head? == some '-'
          finish (← comparePaths { flags := f, style, options } 64 false first second)
      | _, _ => finish 2

/-! ## Bytes -/

/-- A byte in letters, in which a control character shows its letter. -/
def byteText (c : Char) : List Char :=
  let n := c.toNat
  let low := n % 128
  (if 128 ≤ n then ['M', '-'] else []) ++
    if low < 32 then ['^', Char.ofNat (low + 64)]
    else if low = 127 then ['^', '?']
    else [Char.ofNat low]

/-- The flags of the program that compares bytes. -/
def bytesTable : FlagTable where
  plain := "lsb"
  valued := "ni"
  long := [("verbose", 'l'), ("quiet", 's'), ("silent", 's'), ("print-bytes", 'b'),
    ("bytes", 'n'), ("ignore-initial", 'i')]
  isMixed := true

/-- The places at which two texts differ, counted from one, with both characters. -/
def mismatches (a b : List Char) : List (Nat × Char × Char) :=
  (((List.range a.length).zip (a.zip b)).filter fun (_, x, y) => x != y).map
    fun (n, x, y) => (n + 1, x, y)

/-- Compare two files byte by byte. -/
def compareBytes (args : List (List Char)) : Action m Unit := do
  match Flags.ofArgs? bytesTable args with
  | none => finish 2
  | some f =>
      let skips :=
        ((f.value? 'i').elim [] (Text.pieces (· == ':'))) ++ f.operands.drop 2
      let (first, second) := (f.operands.headD [], (f.operands.drop 1).headD ['-'])
      let limit? := (f.value? 'n').bind Amount.readAnyBase?
      match skips.mapM Amount.readAnyBase? with
      | none => finish 2
      | some counts =>
          let skipFirst := counts.headD 0
          let skipSecond := (counts.drop 1).headD skipFirst
          match ← bothTexts? "cmp" first second with
          | none => finish 2
          | some (a, b) =>
              let limited := fun (cs : List Char) => limit?.elim cs (cs.take ·)
              let a := limited (a.drop skipFirst)
              let b := limited (b.drop skipSecond)
              let octal := fun (c : Char) =>
                let digits := Nat.toDigits 8 c.toNat
                List.replicate (3 - digits.length) ' ' ++ digits
              let found := mismatches a b
              let isCut := a.length != b.length
              let shorter := if a.length < b.length then first else second
              if f.has 's' then finish (if found.isEmpty && !isCut then 0 else 1)
              else if f.has 'l' then
                let width := (Text.decimal (min a.length b.length)).length
                for (n, x, y) in found do
                  let name := byteText x
                  let shown :=
                    if f.has 'b' then
                      octal x ++ ' ' :: name ++ List.replicate (4 - name.length) ' ' ++ ' ' ::
                        octal y ++ ' ' :: byteText y
                    else octal x ++ ' ' :: octal y
                  say (Line.padLeft width (Text.decimal n) ++ ' ' :: Line.ended shown)
                if isCut then report "cmp" ("EOF on " ++ shown shorter)
                finish (if found.isEmpty && !isCut then 0 else 1)
              else
                match found with
                | (n, x, y) :: _ =>
                    let line := (a.take (n - 1)).count '\n' + 1
                    let place := Text.decimal n ++ ", line ".toList ++ Text.decimal line
                    let bytes :=
                      if f.has 'b' then
                        " is ".toList ++ octal x ++ ' ' :: byteText x ++ ' ' :: octal y ++ ' ' ::
                          byteText y
                      else []
                    say (first ++ ' ' :: second ++ " differ: ".toList ++
                      (if f.has 'b' then "byte " else "char ").toList ++ place ++ Line.ended bytes)
                    finish 1
                | [] =>
                    if isCut then report "cmp" ("EOF on " ++ shown shorter)
                    finish (if isCut then 1 else 0)

/-! ## All of them -/

/-- The program that compares files with a name, if there is one. -/
def comparingProgram? (name : String) : Option (List (List Char) → Action m Unit) :=
  match name with
  | "comm" => some showOverlap
  | "join" => some join
  | "diff" => some showChanges
  | "cmp" => some compareBytes
  | _ => none

end PlanOrbits.Shell.Action
