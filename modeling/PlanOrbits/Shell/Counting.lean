import PlanOrbits.Shell.Flags
import PlanOrbits.Shell.Format
import PlanOrbits.Shell.Sorting

/-!
# Ranges of numbers

The numbers from a first one to a last one, in equal steps. They are decimals, and
are written with as many places as the first number and the step have.
-/

namespace PlanOrbits.Shell

/-- A range of numbers. -/
structure Counting where
  first : Decimal
  step : Decimal
  last : Decimal
  separator : List Char
  /-- Are numbers filled with zeros to the same width? -/
  isAligned : Bool
  format : Option (List Char)

namespace Decimal

/-- The decimal that a text spells. -/
def ofChars? (cs : List Char) : Option Decimal :=
  let digits :=
    match cs with
    | '-' :: rest | '+' :: rest => rest
    | _ => cs
  let isNumber := digits.any Text.isDigit && digits.all (fun c => Text.isDigit c || c == '.') &&
    digits.count '.' ≤ 1
  if isNumber then
    let d := ofFront (if cs.head? == some '+' then digits else cs)
    some d
  else none

/-- The digits of a decimal with so many places. -/
def scaled (d : Decimal) (places : Nat) : Int := d.digits * Nat.pow 10 (places - d.places)

end Decimal

namespace Counting

/-- The flags of a range. -/
def table : FlagTable where
  plain := "w"
  valued := "sf"
  long := [("equal-width", 'w'), ("separator", 's'), ("format", 'f')]
  isMixed := false

/-- Arguments whose negative numbers are kept from being flags. -/
def protect : List (List Char) → List (List Char)
  | ('-' :: c :: cs) :: args =>
      if Text.isDigit c || c == '.' then ['-', '-'] :: ('-' :: c :: cs) :: args
      else if c == 's' && cs.isEmpty || c == 'f' && cs.isEmpty then
        match args with
        | value :: args => ('-' :: c :: cs) :: value :: protect args
        | [] => ['-' :: c :: cs]
      else ('-' :: c :: cs) :: protect args
  | arg :: args => ['-', '-'] :: arg :: args
  | [] => []

/-- The range that arguments ask for. -/
def ofArgs? (args : List (List Char)) : Option Counting := do
  let f ← Flags.ofArgs? table (protect args)
  let one : Decimal := { digits := 1, places := 0 }
  let (first, step, last) ←
    match ← f.operands.mapM Decimal.ofChars? with
    | [last] => some (one, one, last)
    | [first, last] => some (first, one, last)
    | [first, step, last] => some (first, step, last)
    | _ => none
  if step.digits = 0 then none
  return { first, step, last, separator := (f.value? 's').getD ['\n'], isAligned := f.has 'w'
           format := f.value? 'f' }

variable (r : Counting)

/-- How many places the numbers have. -/
def places : Nat := max r.first.places r.step.places

/-- The numbers, as digits with the same number of places. -/
def numbers : List Int :=
  let places := max r.places r.last.places
  let first := r.first.scaled places
  let step := r.step.scaled places
  let last := r.last.scaled places
  let count := if 0 < step then (last - first) / step + 1 else (first - last) / (-step) + 1
  (List.range count.toNat).map fun (n : Nat) => first + step * n

/-- A number in full. -/
def numberText (n : Int) : List Char :=
  let places := r.places
  let dropped := max places r.last.places - places
  let digits := Rounded.padded (places + 1) (n.natAbs / Nat.pow 10 dropped)
  (if n < 0 then ['-'] else []) ++ Rounded.withPoint places digits

/-- Fill a number with zeros behind its sign, up to a width. -/
def align (width : Nat) (cs : List Char) : List Char :=
  let fill := List.replicate (width - cs.length) '0'
  match cs with
  | '-' :: digits => '-' :: fill ++ digits
  | digits => fill ++ digits

/-- All numbers with separators between them. -/
def text : List Char :=
  let texts := r.numbers.map fun n =>
    match r.format with
    | some format => (formatText .none format [r.numberText n]).1
    | none => r.numberText n
  let width := ([r.first, r.last].map fun d =>
    (r.numberText (d.scaled (max r.places r.last.places))).length).foldl max 0
  let texts := if r.isAligned then texts.map (align width) else texts
  if texts.isEmpty then [] else List.intercalate r.separator texts ++ ['\n']

end Counting

end PlanOrbits.Shell
