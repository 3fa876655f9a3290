import PlanOrbits.Shell.Flags
import PlanOrbits.Shell.Line
import PlanOrbits.Shell.Measure

/-!
# Sorting lines

Lines in the order of their keys. A key is a part of a line between two places,
and is compared by a measure, perhaps without regard to case. Lines with equal keys
are in the order of their bytes, unless they are to stay where they are.
-/

namespace PlanOrbits.Shell

/-! ## Keys -/

/-- How keys are compared. -/
structure KeyOrder where
  measure : Measure
  isReversed : Bool
  ignoresCase : Bool
  /-- Do only blanks, letters and digits count? -/
  isDictionary : Bool
  /-- Do only characters count that can be seen? -/
  isVisible : Bool
  skipsBlanks : Bool
  deriving DecidableEq, Repr

namespace KeyOrder

/-- The order of bytes. -/
def plain : KeyOrder :=
  { measure := .text, isReversed := false, ignoresCase := false, isDictionary := false,
    isVisible := false, skipsBlanks := false }

/-- The order with one more letter. -/
def withLetter? (o : KeyOrder) : Char → Option KeyOrder
  | 'n' => some { o with measure := .number }
  | 'g' => some { o with measure := .real }
  | 'h' => some { o with measure := .size }
  | 'M' => some { o with measure := .month }
  | 'V' => some { o with measure := .version }
  | 'r' => some { o with isReversed := true }
  | 'f' => some { o with ignoresCase := true }
  | 'd' => some { o with isDictionary := true }
  | 'b' => some { o with skipsBlanks := true }
  | 'i' => some { o with isVisible := true }
  | _ => none

/-- The order that letters describe together. Letters for different measures do not go
together, nor does a measure other than that of texts with a choice of characters. -/
def ofLetters? (letters : List Char) : Option KeyOrder := do
  let measures := [['n'], ['g'], ['h'], ['M'], ['V', 'd', 'i']].filter fun group =>
    letters.any group.contains
  if 1 < measures.length then none else letters.foldlM withLetter? plain

/-- The text of a key as it is compared. -/
def normal (o : KeyOrder) (cs : List Char) : List Char :=
  let cs := if o.skipsBlanks then Decimal.skipBlanks cs else cs
  let cs := if o.isDictionary then cs.filter fun c => c.isAlphanum || c == ' ' || c == '\t' else cs
  let cs := if o.isVisible then cs.filter fun c => ' ' ≤ c && c ≤ '~' else cs
  if o.ignoresCase then cs.map Char.toUpper else cs

/-- Compare two keys. -/
def compare (o : KeyOrder) (a b : List Char) : Ordering :=
  let order :=
    match o.measure with
    | .number => Decimal.compare (.ofFront a) (.ofFront b)
    | .size => Measure.compareSizes a b
    | .real => Measure.compareReals a b
    | .month => Ord.compare (Measure.monthRank a) (Measure.monthRank b)
    | .version => Measure.compareVersions (o.normal a) (o.normal b)
    | .text => Ord.compare (o.normal a) (o.normal b)
  if o.isReversed then order.swap else order

end KeyOrder

/-- A key. Fields and characters are counted from zero; without an end it goes to the
end of the line. -/
structure Key where
  firstField : Nat
  firstChar : Nat
  /-- How many fields come before the last one, and how many characters of it
  count; zero is all of them. -/
  last : Option (Nat × Nat)
  order : KeyOrder
  skipsBlanksAtEnd : Bool

namespace Key

/-- Go over so many fields. Where blanks separate fields, they belong to the field
behind them. -/
def skipFields (separator : Option Char) : Nat → List Char → List Char
  | 0, cs => cs
  | n + 1, cs =>
      match separator with
      | some c => skipFields separator n ((cs.dropWhile (· != c)).drop 1)
      | none =>
          let isBlank := fun (c : Char) => c == ' ' || c == '\t'
          skipFields separator n ((cs.dropWhile isBlank).dropWhile (!isBlank ·))

/-- The part of a line from the key on. -/
def start (k : Key) (separator : Option Char) (line : List Char) : List Char :=
  let cs := skipFields separator k.firstField line
  let cs := if k.order.skipsBlanks then Decimal.skipBlanks cs else cs
  cs.drop k.firstChar

/-- The part of a line behind the key. -/
def behind (k : Key) (separator : Option Char) (line : List Char) : List Char :=
  match k.last, separator with
  | none, _ => []
  | some (fields, 0), none => skipFields none (fields + 1) line
  | some (fields, 0), some c => (skipFields separator fields line).dropWhile (· != c)
  | some (fields, chars), _ =>
      let cs := skipFields separator fields line
      let cs := if k.skipsBlanksAtEnd then Decimal.skipBlanks cs else cs
      cs.drop chars

/-- The text of the key in a line. -/
def text (k : Key) (separator : Option Char) (line : List Char) : List Char :=
  let cs := k.start separator line
  cs.take (cs.length - (k.behind separator line).length)

/-- A place in a line: a field, and perhaps a character of it; and letters. -/
def readPlace? (cs : List Char) : Option (Nat × Nat × List Char × List Char) := do
  let digits := cs.takeWhile Text.isDigit
  let field ← (Text.digits? digits).map Text.number
  let (char, rest) ←
    match cs.drop digits.length with
    | '.' :: rest =>
        let digits := rest.takeWhile Text.isDigit
        (Text.digits? digits).map fun ds => (Text.number ds, rest.drop digits.length)
    | rest => some (0, rest)
  let letters := rest.takeWhile Char.isAlpha
  return (field, char, letters, rest.drop letters.length)

/-- The key that a text describes; without letters it has the given order. -/
def ofChars? (default : KeyOrder) (cs : List Char) : Option Key := do
  let (field, char, letters, rest) ← readPlace? cs
  if field = 0 then none
  let (last, lettersBehind) ←
    match rest with
    | [] => some (none, [])
    | ',' :: rest => do
        let (field, char, letters, rest) ← readPlace? rest
        if !rest.isEmpty || field = 0 then none
        pure (some (field - 1, char), letters)
    | _ => none
  let all := letters ++ lettersBehind
  let order ← KeyOrder.ofLetters? all
  return {
    firstField := field - 1, firstChar := char - 1, last
    order :=
      if all.isEmpty then default else { order with skipsBlanks := letters.contains 'b' }
    skipsBlanksAtEnd := if all.isEmpty then default.skipsBlanks else lettersBehind.contains 'b' }

end Key

/-! ## Sorting -/

/-- How lines are sorted. -/
structure Sorting where
  flags : Flags
  order : KeyOrder
  keys : List Key
  separator : Option Char

namespace Sorting

/-- The flags of a sorting. -/
def table : FlagTable where
  plain := "ngrfdbiuscCmzMhRV"
  valued := "ktoSTWPBF"
  long := [("numeric-sort", 'n'), ("reverse", 'r'), ("unique", 'u'), ("ignore-case", 'f'),
    ("key", 'k'), ("field-separator", 't'), ("stable", 's'), ("output", 'o'), ("check", 'K'),
    ("merge", 'm'), ("general-numeric-sort", 'g'), ("human-numeric-sort", 'h'),
    ("month-sort", 'M'), ("version-sort", 'V'), ("random-sort", 'R'), ("sort", 'W'),
    ("dictionary-order", 'd'), ("ignore-nonprinting", 'i'), ("ignore-leading-blanks", 'b'),
    ("zero-terminated", 'z'), ("buffer-size", 'S'), ("temporary-directory", 'T'),
    ("parallel", 'P'), ("batch-size", 'B'), ("files0-from", 'F')]
  isMixed := true
  optional := "K"

/-- The letter for a name of a measure. -/
def letter? (name : List Char) : Option Char :=
  [("general-numeric", 'g'), ("human-numeric", 'h'), ("month", 'M'), ("numeric", 'n'),
    ("random", 'R'), ("version", 'V')].lookup (String.ofList name)

/-- The sorting that arguments ask for, and the files to be read. -/
def ofArgs? (args : List (List Char)) : Option (Sorting × List (List Char)) := do
  let f ← Flags.ofArgs? table args
  let named ← (f.values 'W').mapM letter?
  let letters := (f.given.map Prod.fst).filter fun c => (KeyOrder.plain.withLetter? c).isSome
  let order ← KeyOrder.ofLetters? (letters ++ named.filter (· != 'R'))
  let keys ← (f.values 'k').mapM (Key.ofChars? order)
  let separator ←
    match f.value? 't' with
    | none => some none
    | some [c] => some (some c)
    | some ['\\', '0'] => some (some '\x00')
    | some _ => none
  return ({ flags := f, order, keys, separator }, f.operands)

variable (s : Sorting)

/-- Compare lines by their keys. -/
def compareKeys (a b : List Char) : Ordering :=
  if s.keys.isEmpty then s.order.compare a b
  else
    s.keys.foldl (fun order k =>
      order.then (k.order.compare (k.text s.separator a) (k.text s.separator b))) .eq

/-- Compare lines. -/
def compare (a b : List Char) : Ordering :=
  (s.compareKeys a b).then
    (if s.flags.has 's' || s.flags.has 'u' then .eq
     else
      let order := Ord.compare a b
      if s.order.isReversed then order.swap else order)

/-- Keep the first of neighbours with equal keys. -/
def dropEqual : List (List Char) → List (List Char)
  | [] => []
  | [a] => [a]
  | a :: b :: rest =>
      if s.compareKeys a b == .eq then
        match dropEqual (b :: rest) with
        | [] => [a]
        | _ :: others => a :: others
      else a :: dropEqual (b :: rest)

/-- Are lines in order? -/
def isSorted : List (List Char) → Bool
  | a :: b :: rest =>
      let isGood :=
        match s.compareKeys a b with
        | .lt => true
        | .eq => !s.flags.has 'u'
        | .gt => false
      isGood && isSorted (b :: rest)
  | _ => true

/-- Is it only asked whether lines are in order? -/
def isCheck : Bool := ['c', 'C', 'K'].any s.flags.has

/-- The character behind each line. -/
def mark : Char := if s.flags.has 'z' then '\x00' else '\n'

/-- May a line stand before another one? -/
def mayPrecede (a b : List Char) : Bool := s.compare a b != .gt

/-- The sorted lines of texts; or nothing, if it is only asked whether they are in
order. -/
def run (texts : List (List Char)) : Filtered :=
  let lines := texts.map (Line.allEndedBy s.mark)
  if s.isCheck then ([], s.isSorted lines.flatten)
  else
    let sorted :=
      if s.flags.has 'm' then
        lines.foldl (fun merged more => merged.merge more s.mayPrecede) []
      else lines.flatten.mergeSort s.mayPrecede
    (Line.joinEndedBy s.mark (if s.flags.has 'u' then s.dropEqual sorted else sorted), true)

end Sorting

end PlanOrbits.Shell
