import PlanOrbits.Shell.Number.Front
import PlanOrbits.Text.Blank
import PlanOrbits.Text.Digits

/-!
# Measures

What texts are compared by: as texts, as decimal numbers, as real numbers, as numbers
with letters for their sizes, as names of months, or as versions, in which runs of
digits count as numbers.
-/

namespace PlanOrbits.Shell

/-! ## Decimal numbers -/

/-- A decimal number: digits, and how many of them are behind the point. -/
structure Decimal where
  digits : Int
  places : Nat
  deriving Repr

namespace Decimal

/-- A text without the blanks in front of it. -/
def skipBlanks (cs : List Char) : List Char := cs.dropWhile fun c => c == ' ' || c == '\t'

/-- The number at the front of a text, which is zero if there is none, and what is
behind it. -/
def split (cs : List Char) : Decimal × List Char :=
  let cs := skipBlanks cs
  let (isNegative, cs) :=
    match cs with
    | '-' :: rest => (true, rest)
    | _ => (false, cs)
  let whole := cs.takeWhile Text.isDigit
  let (fraction, rest) :=
    match cs.drop whole.length with
    | '.' :: rest => (rest.takeWhile Text.isDigit, rest.dropWhile Text.isDigit)
    | rest => ([], rest)
  let n : Nat := Text.number ((whole ++ fraction).filterMap Text.digit?)
  ({ digits := if isNegative then -n else n, places := fraction.length }, rest)

/-- The number at the front of a text. -/
def ofFront (cs : List Char) : Decimal := (split cs).1

/-- Compare two numbers. -/
def compare (a b : Decimal) : Ordering :=
  Ord.compare (a.digits * Nat.pow 10 b.places) (b.digits * Nat.pow 10 a.places)

end Decimal

/-! ## Measures -/

/-- What texts are compared as. -/
inductive Measure where
  | text
  | number
  /-- A number with an exponent, or one of the names of numbers. -/
  | real
  /-- A number with a letter for its size. -/
  | size
  | month
  /-- A text in which runs of digits count as numbers. -/
  | version
  deriving DecidableEq, Repr

namespace Measure

/-! ### Sizes -/

/-- The letters for sizes, from the smallest to the largest. -/
def sizeLetters : List Char := ['K', 'M', 'G', 'T', 'P', 'E', 'Z', 'Y', 'R', 'Q']

/-- How large the unit is that begins a text; zero without one. -/
def sizeRank : List Char → Nat
  | 'k' :: _ => 1
  | c :: _ => (sizeLetters.idxOf? c).elim 0 (· + 1)
  | [] => 0

/-- Compare numbers with letters for their sizes: the letter counts first. -/
def compareSizes (a b : List Char) : Ordering :=
  let rank := fun (cs : List Char) =>
    let (n, behind) := Decimal.split cs
    n.digits.sign * sizeRank behind
  (Ord.compare (rank a) (rank b)).then ((Decimal.ofFront a).compare (.ofFront b))

/-! ### Real numbers -/

/-- Compare real numbers: what begins with no number comes first, then what is the
name of no number. -/
def compareReals (a b : List Char) : Ordering :=
  let value? := fun (cs : List Char) =>
    let (x, rest) := Front.signed cs
    if rest.length == cs.length then none else some x
  match value? a, value? b with
  | none, none => .eq
  | none, some _ => .lt
  | some _, none => .gt
  | some x, some y =>
      if x < y then .lt
      else if y < x then .gt
      else Ord.compare (!x.isNaN) (!y.isNaN)

/-! ### Months -/

/-- The beginnings of the names of the months. -/
def monthNames : List (List Char) :=
  ["JAN", "FEB", "MAR", "APR", "MAY", "JUN", "JUL", "AUG", "SEP", "OCT", "NOV", "DEC"].map
    String.toList

/-- Which month a text names; zero, if it names none. -/
def monthRank (cs : List Char) : Nat :=
  (monthNames.idxOf? (((Decimal.skipBlanks cs).take 3).map Char.toUpper)).elim 0 (· + 1)

/-! ### Versions -/

/-- The rank of a character that is no digit: a tilde comes before everything, even
before the end of a text, and letters come before signs. The end of a text has rank
-1, and a digit rank zero. -/
def versionRank (c : Char) : Int :=
  if c == '~' then -2 else if c.isAlpha then c.toNat else c.toNat + 256

/-- Compare ranks; where one list is at its end, another rank stands for it. -/
def compareRanks (last last' : Int) : List Int → List Int → Ordering
  | [], [] => .eq
  | [], r :: _ => Ord.compare last r
  | r :: _, [] => Ord.compare r last'
  | r :: rs, r' :: rs' => (Ord.compare r r').then (compareRanks last last' rs rs')

/-- Compare texts in which runs of digits count as numbers. -/
def compareRuns : Nat → List Char → List Char → Ordering
  | 0, _, _ => .eq
  | _, [], [] => .eq
  | fuel + 1, a, b =>
      let front := fun (cs : List Char) => cs.takeWhile (!Text.isDigit ·)
      let behind := fun (cs : List Char) => cs.dropWhile (!Text.isDigit ·)
      let last := fun (cs : List Char) => if (behind cs).isEmpty then (-1 : Int) else 0
      let value := fun (cs : List Char) =>
        Text.number (((behind cs).takeWhile Text.isDigit).filterMap Text.digit?)
      let rest := fun (cs : List Char) => (behind cs).dropWhile Text.isDigit
      let fronts := compareRanks (last a) (last b)
        ((front a).map versionRank) ((front b).map versionRank)
      (fronts.then (Ord.compare (value a) (value b))).then (compareRuns fuel (rest a) (rest b))

/-- Is a text a suffix of the name of a file, with all its points? -/
def isFileSuffix : List Char → Bool
  | [] => true
  | '.' :: c :: cs =>
      (c.isAlpha || c == '~') && isFileSuffix (cs.dropWhile fun c => c.isAlphanum || c == '~')
  | _ => false
termination_by cs => cs.length
decreasing_by
  have := (List.dropWhile_sublist (fun c => c.isAlphanum || c == '~') (l := cs)).length_le
  simp only [List.length_cons]
  omega

/-- A name of a file without its suffix; at least one character is left. -/
def dropFileSuffix : List Char → List Char
  | [] => []
  | c :: cs => if isFileSuffix cs then [c] else c :: dropFileSuffix cs

/-- Compare versions. The empty text comes first, then what begins with a point; after
that suffixes like those of files count only if all else is equal. -/
def compareVersions (a b : List Char) : Ordering :=
  let place := fun (cs : List Char) =>
    if cs.isEmpty then 0
    else if cs == ['.'] then 1
    else if cs == ['.', '.'] then 2
    else if cs.head? == some '.' then 3
    else 4
  let fuel := a.length + b.length + 1
  ((Ord.compare (place a) (place b)).then
    (compareRuns fuel (dropFileSuffix a) (dropFileSuffix b))).then (compareRuns fuel a b)

end Measure

end PlanOrbits.Shell
