import PlanOrbits.Shell.Amount
import PlanOrbits.Shell.Flags
import PlanOrbits.Shell.Line

/-!
# Columns and parts of lines

Filters that go through a text line by line: they cut parts out of lines, number
or reverse or fold them, or put the lines of several texts side by side. Others
take the beginning or the end of a text, or count what is in it.
-/

namespace PlanOrbits.Shell

/-! ## Cutting -/

namespace Cut

/-- The flags of the filter that cuts parts out of lines. -/
def table : FlagTable where
  plain := "sn"
  valued := "dfcbO"
  long := [("delimiter", 'd'), ("fields", 'f'), ("characters", 'c'), ("bytes", 'b'),
    ("only-delimited", 's'), ("complement", 'n'), ("output-delimiter", 'O')]
  isMixed := true

/-- A range of places, counted from one; without an end it is open. -/
def readRange? (cs : List Char) : Option (Nat × Option Nat) :=
  let first := cs.takeWhile Text.isDigit
  match cs.drop first.length with
  | [] => (Text.digits? first).map fun ds => (Text.number ds, some (Text.number ds))
  | ['-'] => (Text.digits? first).map fun ds => (Text.number ds, none)
  | '-' :: last =>
      if first.isEmpty then (Text.digits? last).map fun ds => (1, some (Text.number ds))
      else do
        let low := Text.number (← Text.digits? first)
        let high := Text.number (← Text.digits? last)
        if high < low then none else some (low, some high)
  | _ => none

/-- Ranges with commas or blanks between them. -/
def readRanges? (cs : List Char) : Option (List (Nat × Option Nat)) := do
  let ranges ← (Text.pieces (fun c => c == ',' || c == ' ' || c == '\t') cs).mapM readRange?
  if ranges.any (·.1 == 0) then none else some ranges

/-- Is a place, counted from zero, in one of the ranges? -/
def isIn (ranges : List (Nat × Option Nat)) (i : Nat) : Bool :=
  ranges.any fun (low, high?) => low ≤ i + 1 && high?.all (i + 1 ≤ ·)

/-- The items at the places in ranges. -/
def pick {α : Type} (isPicked : Nat → Bool) (items : List α) : List α :=
  ((List.range items.length).zip items).filterMap fun (i, item) =>
    if isPicked i then some item else none

/-- The parts of the lines of a text. -/
def run? (args : List (List Char)) (text : List Char) : Option Filtered := do
  let f ← Flags.ofArgs? table args
  let lines := Line.all text
  let picked := fun (written : List Char) => do
    let ranges ← readRanges? written
    return fun i => isIn ranges i != f.has 'n'
  match f.value? 'f', (f.value? 'c').or (f.value? 'b') with
  | some written, none =>
      let isPicked ← picked written
      let delimiter ←
        match f.value? 'd' with
        | none => some '\t'
        | some [c] => some c
        | some _ => none
      let joint := (f.value? 'O').getD [delimiter]
      let parts := lines.filterMap fun line =>
        if line.contains delimiter then
          some (List.intercalate joint (pick isPicked (Text.pieces (· == delimiter) line)))
        else if f.has 's' then none
        else some line
      return (Line.join parts, true)
  | none, some written =>
      let isPicked ← picked written
      return (Line.join (lines.map (pick isPicked)), true)
  | _, _ => none

end Cut

/-! ## Side by side -/

namespace Paste

/-- The flags of the filter that puts lines side by side. -/
def table : FlagTable where
  plain := "sz"
  valued := "d"
  long := [("serial", 's'), ("delimiters", 'd')]
  isMixed := true

/-- The separators that a text lists; they are used in turn. -/
def readSeparators : List Char → List (List Char)
  | [] => []
  | '\\' :: 'n' :: cs => ['\n'] :: readSeparators cs
  | '\\' :: 't' :: cs => ['\t'] :: readSeparators cs
  | '\\' :: '0' :: cs => [] :: readSeparators cs
  | '\\' :: c :: cs => [c] :: readSeparators cs
  | c :: cs => [c] :: readSeparators cs

/-- Join texts with separators that are used in turn. -/
def join (separators : List (List Char)) : Nat → List (List Char) → List Char
  | _, [] => []
  | _, [text] => text
  | i, text :: texts =>
      text ++ (separators[i % max 1 separators.length]?).getD [] ++ join separators (i + 1) texts

/-- The lines of texts side by side, or the lines of each text in one line. -/
def lines (isSerial : Bool) (separators : List (List Char)) (texts : List (List (List Char))) :
    List (List Char) :=
  if isSerial then texts.map (join separators 0)
  else
    let rows := texts.foldl (fun n ls => max n ls.length) 0
    (List.range rows).map fun i => join separators 0 (texts.map fun ls => ls.getD i [])

end Paste

/-! ## Numbering and reversing -/

/-- The lines of a text in the opposite order. -/
def reverseLines (text : List Char) : List Char := (Line.withEnds text).reverse.flatten

/-- The characters of each line in the opposite order. -/
def reverseInLines (text : List Char) : List Char :=
  (Line.withEnds text).flatMap fun line =>
    if line.getLast? == some '\n' then line.dropLast.reverse ++ ['\n'] else line.reverse

namespace Numbering

/-- The flags of the filter that numbers lines. -/
def table : FlagTable where
  plain := "p"
  valued := "bwsvinhfld"
  long := [("body-numbering", 'b'), ("number-width", 'w'), ("number-separator", 's'),
    ("starting-line-number", 'v'), ("line-increment", 'i'), ("number-format", 'n')]
  isMixed := true

/-- A number in its column. -/
def column (style : List Char) (width n : Nat) : List Char :=
  let digits := Text.decimal n
  if style == ['l', 'n'] then digits ++ List.replicate (width - digits.length) ' '
  else if style == ['r', 'z'] then List.replicate (width - digits.length) '0' ++ digits
  else Line.padLeft width digits

/-- Number lines from `next` on. -/
def number (isNumbered : List Char → Bool) (label : Nat → List Char) (blank : List Char)
    (step : Nat) : Nat → List (List Char) → List Char
  | _, [] => []
  | next, line :: lines =>
      if isNumbered line then
        label next ++ Line.ended line ++ number isNumbered label blank step (next + step) lines
      else blank ++ Line.ended line ++ number isNumbered label blank step next lines

/-- The lines of a text with numbers. -/
def run? (args : List (List Char)) (text : List Char) : Option Filtered := do
  let f ← Flags.ofArgs? table args
  let width ← f.number? 'w' 6
  let first ← f.number? 'v' 1
  let step ← f.number? 'i' 1
  let separator := (f.value? 's').getD ['\t']
  let isNumbered : List Char → Bool ←
    match (f.value? 'b').getD ['t'] with
    | ['a'] => some fun _ => true
    | ['t'] => some fun line => !line.isEmpty
    | ['n'] => some fun _ => false
    | _ => none
  let label := fun n => column ((f.value? 'n').getD []) width n ++ separator
  let blank := List.replicate (width + separator.length) ' '
  return (number isNumbered label blank step first (Line.all text), true)

end Numbering

/-! ## Showing -/

namespace Show

/-- The flags of the filter that shows a text. -/
def table : FlagTable where
  plain := "nbsEeTtvAu"
  valued := ""
  long := [("number", 'n'), ("number-nonblank", 'b'), ("squeeze-blank", 's'), ("show-ends", 'E'),
    ("show-tabs", 'T'), ("show-nonprinting", 'v'), ("show-all", 'A')]
  isMixed := true

/-- A character in signs that can be seen. -/
def visible (c : Char) : List Char :=
  let low := fun (n : Nat) =>
    if n < 32 then ['^', Char.ofNat (n + 64)] else if n == 127 then ['^', '?'] else [Char.ofNat n]
  if c == '\t' || c == '\n' then [c]
  else if c.toNat < 128 then low c.toNat
  else ['M', '-'] ++ low (c.toNat - 128)

/-- Drop empty lines that follow an empty line. -/
def squeezeBlank : List (List Char) → List (List Char)
  | ['\n'] :: ['\n'] :: lines => squeezeBlank (['\n'] :: lines)
  | line :: lines => line :: squeezeBlank lines
  | [] => []

/-- A text as the flags ask for. -/
def run (f : Flags) (text : List Char) : List Char :=
  if f.given.isEmpty then text
  else
    let has := fun (cs : List Char) => cs.any f.has
    let lines := Line.withEnds text
    let lines := if f.has 's' then squeezeBlank lines else lines
    let display := fun (line : List Char) =>
      let isEnded := line.getLast? == some '\n'
      let cs := if isEnded then line.dropLast else line
      let cs := if has ['v', 'e', 't', 'A'] then cs.flatMap visible else cs
      let cs :=
        if has ['T', 't', 'A'] then cs.flatMap fun c => if c == '\t' then ['^', 'I'] else [c]
        else cs
      cs ++ (if isEnded then if has ['E', 'e', 'A'] then ['$', '\n'] else ['\n'] else [])
    let isNumbered := fun (line : List Char) =>
      if f.has 'b' then line != ['\n'] else f.has 'n'
    go isNumbered display 1 lines
where
  /-- Number lines and show them. -/
  go (isNumbered : List Char → Bool) (display : List Char → List Char) :
      Nat → List (List Char) → List Char
    | _, [] => []
    | n, line :: lines =>
        if isNumbered line then
          Line.padLeft 6 (Text.decimal n) ++ '\t' :: display line ++
            go isNumbered display (n + 1) lines
        else display line ++ go isNumbered display n lines

end Show

/-! ## Beginnings and ends -/

namespace Extract

/-- The flags of the filters that take a part of a text. -/
def table : FlagTable where
  plain := "qvzfF"
  valued := "nc"
  long := [("lines", 'n'), ("bytes", 'c'), ("quiet", 'q'), ("silent", 'q'), ("verbose", 'v')]
  isMixed := true

/-- A part of a text: lines or characters, so many, with the sign that was in front
of their number. -/
structure Part where
  isLines : Bool
  sign : Option Char
  count : Nat

/-- A count, perhaps with a sign in front. -/
def readCount? (isLines : Bool) (cs : List Char) : Option Part := do
  let (sign, cs) :=
    match cs with
    | '+' :: cs => (some '+', cs)
    | '-' :: cs => (some '-', cs)
    | cs => (none, cs)
  return { isLines, sign, count := ← Amount.read? cs }

/-- The part that arguments ask for, the flags, and the files to be read: ten lines
unless the arguments say otherwise. -/
def ofArgs? (isFront : Bool) (args : List (List Char)) : Option (Part × Flags) := do
  if let (sign :: c :: cs) :: rest := args then
    if Text.isDigit c && (sign == '-' || sign == '+' && !isFront) then
      let digits := (c :: cs).takeWhile Text.isDigit
      let letters := (c :: cs).drop digits.length
      let f ← Flags.ofArgs? table rest
      return ({ isLines := !letters.contains 'c', sign := some sign |>.filter (· == '+'),
                count := (Text.digits? digits).elim 0 Text.number }, f)
  let f ← Flags.ofArgs? table args
  match (f.given.filter fun (c, _) => c == 'n' || c == 'c').getLast? with
  | some (c, cs) => return (← readCount? (c == 'n') cs, f)
  | none => return ({ isLines := true, sign := none, count := 10 }, f)

/-- The beginning of a text; with a minus sign all but the end. -/
def Part.front (p : Part) (text : List Char) : List Char :=
  if p.isLines then
    let lines := Line.withEnds text
    (lines.take (if p.sign == some '-' then lines.length - p.count else p.count)).flatten
  else text.take (if p.sign == some '-' then text.length - p.count else p.count)

/-- The end of a text; with a plus sign from the n-th on. -/
def Part.back (p : Part) (text : List Char) : List Char :=
  if p.isLines then
    let lines := Line.withEnds text
    (lines.drop (if p.sign == some '+' then p.count - 1 else lines.length - p.count)).flatten
  else text.drop (if p.sign == some '+' then p.count - 1 else text.length - p.count)

end Extract

/-! ## Counting -/

namespace Count

/-- The flags of the filter that counts. -/
def table : FlagTable where
  plain := "lwcmL"
  valued := ""
  long := [("lines", 'l'), ("words", 'w'), ("bytes", 'c'), ("chars", 'm'), ("max-line-length", 'L')]
  isMixed := true

/-- What is counted, in this order. -/
def letters (f : Flags) : List Char :=
  if f.given.isEmpty then ['l', 'w', 'c'] else ['l', 'w', 'm', 'c', 'L'].filter f.has

/-- The number for a letter. -/
def number (letter : Char) (text : List Char) : Nat :=
  match letter with
  | 'l' => text.count '\n'
  | 'w' =>
      let isGap := fun (c : Char) => c == ' ' || ('\t' ≤ c && c ≤ '\r')
      ((Text.pieces isGap text).filter (!·.isEmpty)).length
  | 'L' => (Line.all text).foldl (fun n line => max n line.length) 0
  | _ => text.length

/-- Numbers in columns of a width, and a name behind them. -/
def row (width : Nat) (numbers : List Nat) (name : List Char) : List Char :=
  Line.ended (List.intercalate [' ']
    (numbers.map (fun n => Line.padLeft width (Text.decimal n)) ++
      if name.isEmpty then [] else [name]))

end Count

end PlanOrbits.Shell
