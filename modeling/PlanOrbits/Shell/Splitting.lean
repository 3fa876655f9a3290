import PlanOrbits.Shell.Amount
import PlanOrbits.Shell.Flags
import PlanOrbits.Shell.Line

/-!
# Splitting texts

A text in parts: of so many lines, of so many bytes, of as many whole lines as have
room, or in a given number of parts. The parts go into files whose names count up, in
letters or in digits.
-/

namespace PlanOrbits.Shell

/-- Lists of at most so many items. -/
def groupsOf {α : Type} (count : Nat) : Nat → List α → List (List α)
  | 0, _ | _, [] => []
  | fuel + 1, items => items.take count :: groupsOf count fuel (items.drop count)

namespace Splitting

/-! ## Parts -/

/-- How a text is split. -/
inductive Portioning where
  | lines (count : Nat)
  | bytes (count : Nat)
  /-- As many whole lines as have room in so many bytes. -/
  | fullLines (size : Nat)
  /-- In a number of parts with the same number of bytes. -/
  | parts (count : Nat)
  /-- In a number of parts with about the same number of bytes, of whole lines. -/
  | lineParts (count : Nat)
  /-- In a number of parts to which the lines are dealt out in turn. -/
  | turns (count : Nat)
  deriving DecidableEq, Repr

/-- Put lines together as long as they have room. A line that has no room by itself is
cut. -/
def pack (size : Nat) : Nat → List Char → List (List Char) → List (List Char)
  | 0, _, _ => []
  | _, part, [] => if part.isEmpty then [] else [part]
  | fuel + 1, part, line :: lines =>
      if part.length + line.length ≤ size then pack size fuel (part ++ line) lines
      else if part.isEmpty then line.take size :: pack size fuel [] (line.drop size :: lines)
      else part :: pack size fuel [] (line :: lines)

/-- Where each of a number of parts begins and ends. The last part takes what is over. -/
def bounds (length count : Nat) : List (Nat × Nat) :=
  let place := fun (i : Nat) => if i = count then length else i * (length / count)
  (List.range count).map fun i => (place i, place (i + 1))

/-- The lines that begin between two places; the first of them begins at `start`. -/
def linesBetween (low high : Nat) : (start : Nat) → List (List Char) → List (List Char)
  | _, [] => []
  | start, line :: lines =>
      let rest := linesBetween low high (start + line.length) lines
      if low ≤ start && start < high then line :: rest else rest

/-- Every so many-th item, from one of them on. -/
def everyNth {α : Type} (count first : Nat) (items : List α) : List α :=
  ((List.range items.length).zip items).filterMap fun (n, item) =>
    if n % count = first then some item else none

/-- Lines with the characters behind them; the last may have none. -/
def withEnds (mark : Char) (text : List Char) : List (List Char) :=
  let pieces := Text.pieces (· == mark) text
  let last := pieces.getLast?.getD []
  pieces.dropLast.map (· ++ [mark]) ++ if last.isEmpty then [] else [last]

/-- The parts of a text. -/
def Portioning.split (mark : Char) (text : List Char) : Portioning → List (List Char)
  | .lines count => (groupsOf count text.length (withEnds mark text)).map List.flatten
  | .bytes count => groupsOf count text.length text
  | .fullLines size => pack size (2 * text.length + 2) [] (withEnds mark text)
  | .parts count =>
      (bounds text.length count).map fun (low, high) => (text.take high).drop low
  | .lineParts count =>
      (bounds text.length count).map fun (low, high) =>
        (linesBetween low high 0 (withEnds mark text)).flatten
  | .turns count =>
      (List.range count).map fun i => (everyNth count i (withEnds mark text)).flatten

/-- How many parts there are, if that is asked for. -/
def Portioning.count? : Portioning → Option Nat
  | .parts count | .lineParts count | .turns count => some count
  | _ => none

/-! ## Names -/

/-- A number in digits of an alphabet, with so many places; nothing, if they are not
enough. -/
def numeral? (alphabet : List Char) (places n : Nat) : Option (List Char) :=
  let base := alphabet.length
  if n < Nat.pow base places then
    some <| (List.range places).reverse.map fun i => alphabet.getD (n / Nat.pow base i % base) '0'
  else none

/-- The ending of a name where there may always be more places: names in which all
places but the last two are taken by the last digit are never used up, because the last
digit of the alphabet in front always stands for one more place. -/
def openNumeral (alphabet : List Char) : Nat → (places n : Nat) → List Char
  | 0, places, n => (numeral? alphabet places n).getD []
  | fuel + 1, places, n =>
      let base := alphabet.length
      let here := (base - 1) * Nat.pow base (places - 1)
      if n < here then (numeral? alphabet places n).getD []
      else alphabet.getD (base - 1) 'z' :: openNumeral alphabet fuel places.succ (n - here)

/-- How the parts are named. -/
structure Naming where
  stem : List Char
  alphabet : List Char
  /-- The number of places; without it there are as many as are needed. -/
  places : Option Nat
  start : Nat
  suffix : List Char
  deriving Repr

/-- The name of a part; nothing, if the names are used up. -/
def Naming.name? (n : Naming) (i : Nat) : Option (List Char) :=
  let digits? :=
    match n.places with
    | some places => numeral? n.alphabet places (n.start + i)
    | none => some (openNumeral n.alphabet 64 2 (n.start + i))
  digits?.map fun digits => n.stem ++ digits ++ n.suffix

end Splitting

/-! ## Arguments -/

/-- What is asked for: how to split, how to name the parts, and more. -/
structure Splitting where
  portioning : Splitting.Portioning
  naming : Splitting.Naming
  /-- The only part that is wanted, counted from one; it is shown. -/
  only : Option Nat
  mark : Char
  flags : Flags

namespace Splitting

/-- The flags of the program that splits. -/
def table : FlagTable where
  plain := "dexuv"
  valued := "ablnCtAF"
  long := [("bytes", 'b'), ("lines", 'l'), ("line-bytes", 'C'), ("number", 'n'),
    ("suffix-length", 'a'), ("additional-suffix", 'A'), ("filter", 'F'), ("separator", 't'),
    ("elide-empty-files", 'e'), ("unbuffered", 'u'), ("verbose", 'v'),
    ("numeric-suffixes", 'D'), ("hex-suffixes", 'X')]
  isMixed := true
  optional := "DX"

/-- Arguments in which a number behind a dash has the letter for lines. -/
def withLetters (args : List (List Char)) : List (List Char) :=
  args.map fun arg =>
    match arg with
    | '-' :: c :: cs => if (c :: cs).all Text.isDigit then '-' :: 'l' :: c :: cs else arg
    | _ => arg

/-- A number that is not zero. -/
def positive? (cs : List Char) : Option Nat := (Amount.read? cs).filter (0 < ·)

/-- The parts that a text asks for by their number: how many, and which of them. A letter
in front tells that lines are not cut, or that they are dealt out. -/
def readParts? (cs : List Char) : Option (Portioning × Option Nat) := do
  let (make, cs) : (Nat → Portioning) × List Char :=
    match cs with
    | 'l' :: '/' :: rest => (.lineParts, rest)
    | 'r' :: '/' :: rest => (.turns, rest)
    | rest => (.parts, rest)
  match Text.cutAt? '/' cs with
  | none => return (make (← positive? cs), none)
  | some (only, count) =>
      let only ← positive? only
      let count ← positive? count
      if count < only then none else return (make count, some only)

/-- How to split, if that is given once at most. -/
def readPortioning? (f : Flags) : Option (Portioning × Option Nat) := do
  match f.given.filter fun (c, _) => ['b', 'l', 'C', 'n'].contains c with
  | [] => return (.lines 1000, none)
  | [('b', value)] => return (.bytes (← positive? value), none)
  | [('l', value)] => return (.lines (← positive? value), none)
  | [('C', value)] => return (.fullLines (← positive? value), none)
  | [(_, value)] => readParts? value
  | _ => none

/-- The alphabet of the names, and the number of the first one if it is given. -/
def readAlphabet? (f : Flags) : Option (List Char × Option Nat) := do
  let digits := "0123456789".toList
  let hexDigits := digits ++ "abcdef".toList
  let start? := fun (alphabet value : List Char) => do
    let ds ← value.mapM alphabet.idxOf?
    return if ds.isEmpty then none else some (ds.foldl (alphabet.length * · + ·) 0)
  match (f.given.filter fun (c, _) => ['d', 'x', 'D', 'X'].contains c).getLast? with
  | some ('d', _) => return (digits, none)
  | some ('x', _) => return (hexDigits, none)
  | some ('D', value) => return (digits, ← start? digits value)
  | some (_, value) => return (hexDigits, ← start? hexDigits value)
  | none => return ("abcdefghijklmnopqrstuvwxyz".toList, none)

/-- How many places are needed for numbers up to a largest one. -/
def placesFor (base : Nat) : Nat → Nat → Nat
  | 0, _ => 1
  | fuel + 1, n => if n < base then 1 else 1 + placesFor base fuel (n / base)

/-- What arguments ask for, and the file to be read. -/
def ofArgs? (args : List (List Char)) : Option (Splitting × List Char) := do
  let f ← Flags.ofArgs? table (withLetters args)
  let (portioning, only) ← readPortioning? f
  let (alphabet, start) ← readAlphabet? f
  let mark ←
    match f.value? 't' with
    | none => some '\n'
    | some [c] => some c
    | some ['\\', '0'] => some '\x00'
    | some _ => none
  let needed := portioning.count?.map fun count =>
    placesFor alphabet.length 64
      (count - 1 + (start.filter (· < count)).getD 0)
  let wanted ← if f.has 'a' then (f.number? 'a' 0).map some else some none
  let places ←
    match wanted.filter (0 < ·), needed with
    | some given, some least => if given < least then none else some (some given)
    | some given, none => some (some given)
    | none, some least => some (some (max 2 least))
    | none, none => some (start.map fun _ => 2)
  let suffix := (f.value? 'A').getD []
  if suffix.contains '/' then none
  let (path, stem) ←
    match f.operands with
    | [] => some (['-'], ['x'])
    | [path] => some (path, ['x'])
    | [path, stem] => some (path, stem)
    | _ => none
  return ({
    portioning, only, mark, flags := f
    naming := { stem, alphabet, places, start := start.getD 0, suffix } }, path)

/-- The parts of a text. Empty ones may be left out. -/
def texts (s : Splitting) (text : List Char) : List (List Char) :=
  let all := s.portioning.split s.mark text
  if s.flags.has 'e' then all.filter (!·.isEmpty) else all

/-- The parts of a text with their names, as far as there are names. -/
def named (s : Splitting) (text : List Char) : List (List Char × List Char) :=
  let texts := s.texts text
  (((List.range texts.length).map s.naming.name?).takeWhile Option.isSome).filterMap id |>.zip texts

end Splitting

end PlanOrbits.Shell
