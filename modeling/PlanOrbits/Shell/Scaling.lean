import PlanOrbits.Shell.Number.Rounded
import PlanOrbits.Shell.Columns
import PlanOrbits.Shell.Flags
import PlanOrbits.Shell.Line

/-!
# Numbers with units

The filter that writes numbers with units of their own: a letter stands for a power of
1000 or of 1024. Numbers are quotients of natural numbers, which are rounded once, when
they are written.
-/

namespace PlanOrbits.Shell.Scaling

/-- What letters behind numbers stand for. -/
inductive Scale where
  /-- There are none. -/
  | none
  /-- Powers of 1000. -/
  | decimal
  /-- Powers of 1024. -/
  | binary
  /-- Powers of 1024, with another letter behind. -/
  | marked
  /-- Powers of 1000, or of 1024 where another letter is behind. -/
  | any
  deriving DecidableEq, Repr

/-- The scale with a name. -/
def Scale.ofName? (cs : List Char) : Option Scale :=
  [("none", Scale.none), ("si", .decimal), ("iec", .binary), ("iec-i", .marked),
    ("auto", .any)].lookup (String.ofList cs)

/-- The base of the powers. -/
def Scale.base : Scale → Nat
  | .binary | .marked => 1024
  | _ => 1000

/-- How a quotient becomes an integer. -/
inductive Rounding where
  | up
  | down
  | fromZero
  | towardsZero
  | nearest
  deriving DecidableEq, Repr

/-- The way of rounding with a name. -/
def Rounding.ofName? (cs : List Char) : Option Rounding :=
  [("up", Rounding.up), ("down", .down), ("from-zero", .fromZero),
    ("towards-zero", .towardsZero), ("nearest", .nearest)].lookup (String.ofList cs)

/-- The magnitude of a quotient as a natural number. -/
def Rounding.round (r : Rounding) (isNegative : Bool) (num den : Nat) : Nat :=
  let goesUp :=
    match r with
    | .up => !isNegative
    | .down => isNegative
    | .fromZero => true
    | .towardsZero => false
    | .nearest => false
  if r = .nearest then (2 * num + den) / (2 * den)
  else if goesUp then (num + den - 1) / den
  else num / den

/-- A number that was read. -/
structure Quotient where
  isNegative : Bool
  num : Nat
  den : Nat
  /-- How many digits there were behind the point. -/
  places : Nat
  deriving DecidableEq, Repr

/-- Why a text is no number. -/
inductive Fault where
  | number
  | suffix
  /-- The letter behind the unit is missing. -/
  | mark
  /-- A unit where there should be none. -/
  | unit
  deriving DecidableEq, Repr

/-- The message about a text that is no number. -/
def Fault.message (f : Fault) (text : List Char) : String :=
  let quoted := "'" ++ String.ofList text ++ "'"
  match f with
  | .number => "invalid number: " ++ quoted
  | .suffix => "invalid suffix in input: " ++ quoted
  | .mark => "missing 'i' suffix in input: " ++ quoted ++ " (e.g Ki/Mi/Gi)"
  | .unit => "rejecting suffix in input: " ++ quoted ++ " (consider using --from)"

/-- The letters for the powers. -/
def letters : List Char := ['K', 'M', 'G', 'T', 'P', 'E', 'Z', 'Y']

/-- The number that a text denotes. -/
def read (scale : Scale) (text : List Char) : Except Fault Quotient :=
  let (isNegative, cs) :=
    match text with
    | '-' :: rest => (true, rest)
    | cs => (false, cs)
  let whole := cs.takeWhile Text.isDigit
  let rest := cs.drop whole.length
  let (hasPoint, fraction, rest) :=
    match rest with
    | '.' :: rest => (true, rest.takeWhile Text.isDigit, rest.dropWhile Text.isDigit)
    | rest => (false, [], rest)
  match Text.digits? (whole ++ fraction) with
  | none => .error .number
  | some digits =>
      if whole.isEmpty || hasPoint && fraction.isEmpty then .error .number
      else
        let q : Quotient :=
          { isNegative, num := Text.number digits, den := Nat.pow 10 fraction.length
            places := fraction.length }
        match rest with
        | [] => .ok q
        | c :: rest =>
            match letters.idxOf? (if c == 'k' then 'K' else c) with
            | none => .error .suffix
            | some power =>
                let scaled := fun (base : Nat) =>
                  Except.ok { q with num := q.num * Nat.pow base (power + 1), places := 0 }
                match scale, rest with
                | .none, _ => .error .unit
                | .any, ['i'] | .marked, ['i'] => scaled 1024
                | .marked, [] => .error .mark
                | .binary, [] => scaled 1024
                | .decimal, [] | .any, [] => scaled 1000
                | _, _ => .error .suffix

/-- How a number is written. -/
structure Style where
  scale : Scale
  rounding : Rounding
  /-- The digits behind the point, if they are given. -/
  places : Option Nat

/-- The power of the unit in which a number is written: the largest that it reaches. -/
def powerOf (base : Nat) : Nat → (num den : Nat) → Nat
  | 0, _, _ => 0
  | fuel + 1, num, den => if num < den * base then 0 else powerOf base fuel num (den * base) + 1

/-- A number with its unit. -/
def write (s : Style) (q : Quotient) : List Char :=
  let sign := fun (n : Nat) => if q.isNegative && n != 0 then ['-'] else []
  let fixed := fun (places n : Nat) => Rounded.withPoint places (Rounded.padded (places + 1) n)
  if s.scale = .none then
    let places := s.places.getD q.places
    let n := s.rounding.round q.isNegative (q.num * Nat.pow 10 places) q.den
    sign n ++ fixed places n
  else
    let base := s.scale.base
    let power := powerOf base letters.length q.num q.den
    let den := q.den * Nat.pow base power
    let adjust :=
      match s.places with
      | some places => min (power * 3) places
      | none => if q.num < 10 * den then 1 else 0
    let n := s.rounding.round q.isNegative (q.num * Nat.pow 10 adjust) den
    -- Rounding may reach the next unit.
    let isNext := base * Nat.pow 10 adjust ≤ n
    let power := if isNext then power + 1 else power
    let (num, den) :=
      if isNext then (n, base * Nat.pow 10 adjust) else (n, Nat.pow 10 adjust)
    let places := s.places.getD (if num != 0 && num < 10 * den && power != 0 then 1 else 0)
    let digits := Binary64.nearest (num * Nat.pow 10 places) den
    let unit := if power = 0 then [] else (letters.drop (power - 1)).take 1
    let mark := if s.scale = .marked && power != 0 then ['i'] else []
    sign digits ++ fixed places digits ++ unit ++ mark

/-! ## The filter -/

/-- The flags of the filter. -/
def table : FlagTable where
  plain := "Dz"
  valued := "dfFtTpPrsxUi"
  optional := "H"
  long := [("delimiter", 'd'), ("field", 'f'), ("from", 'F'), ("to", 'T'), ("padding", 'p'),
    ("format", 'P'), ("round", 'r'), ("suffix", 's'), ("from-unit", 'x'), ("to-unit", 'U'),
    ("invalid", 'i'), ("header", 'H'), ("debug", 'D'), ("grouping", 'D'),
    ("zero-terminated", 'z')]
  isMixed := true

/-- What is done with each field. -/
structure Settings where
  fromScale : Scale
  fromUnit : Nat
  toUnit : Nat
  style : Style
  suffix : List Char
  /-- What stands in front of the number, and behind it. -/
  around : List Char × List Char
  /-- The width of a number, and whether it stands at the left. -/
  padding : Option (Nat × Bool)
  isFilledWithZeros : Bool
  delimiter : Option Char
  fields : List (Nat × Option Nat)
  headers : Nat
  /-- What becomes of a text that is no number. -/
  invalid : List Char
  mark : Char

/-- The parts of a format: what is in front of the number, flags, the width, the digits
behind the point, and what is behind the number. -/
def readFormat? (cs : List Char) :
    Option (List Char × List Char × Option Nat × Option Nat × List Char) := do
  let front := cs.takeWhile (· != '%')
  let rest ← (cs.drop front.length).tail?
  let flags := rest.takeWhile ['\'', '-', '0', ' '].contains
  let rest := rest.drop flags.length
  let width := rest.takeWhile Text.isDigit
  let rest := rest.drop width.length
  let (places, rest) :=
    match rest with
    | '.' :: rest =>
        let digits := rest.takeWhile Text.isDigit
        (some (((Text.digits? digits).map Text.number).getD 0), rest.drop digits.length)
    | rest => (none, rest)
  match rest with
  | 'f' :: behind => some (front, flags, (Text.digits? width).map Text.number, places, behind)
  | _ => none

/-- The settings that flags give. -/
def ofFlags? (f : Flags) : Option Settings := do
  let scale? := fun (c : Char) => (f.value? c).elim (some Scale.none) Scale.ofName?
  let unit? := fun (c : Char) => (f.value? c).elim (some 1) fun cs =>
    match (read .any cs).toOption with
    | some q => if q.num = 0 || q.den != 1 then none else some q.num
    | none => none
  let rounding ← (f.value? 'r').elim (some Rounding.fromZero) Rounding.ofName?
  let format? ← (f.value? 'P').elim (some none) fun cs => (readFormat? cs).map some
  let given ← (f.value? 'p').elim (some none) fun cs =>
    match cs with
    | '-' :: digits => (Text.digits? digits).map fun ds => some (Text.number ds, true)
    | digits => (Text.digits? digits).map fun ds => some (Text.number ds, false)
  let ofFormat := format?.bind fun (_, flags, width, _, _) =>
    width.map fun n => (n, flags.contains '-')
  let fields ←
    match f.value? 'f' with
    | none => some [(1, some 1)]
    | some ['-'] => some [(1, none)]
    | some cs => Cut.readRanges? cs
  let headers ←
    match f.value? 'H' with
    | none => some 0
    | some [] => some 1
    | some cs => (Text.digits? cs).map Text.number
  return {
    fromScale := ← scale? 'F', fromUnit := ← unit? 'x', toUnit := ← unit? 'U'
    style :=
      { scale := ← scale? 'T', rounding
        places := format?.bind fun (_, _, _, places, _) => places }
    suffix := (f.value? 's').getD []
    around := format?.elim ([], []) fun (front, _, _, _, behind) => (front, behind)
    padding := given.or ofFormat
    isFilledWithZeros := format?.any fun (_, flags, _, _, _) => flags.contains '0'
    delimiter := (f.value? 'd').bind List.head?
    fields, headers
    invalid := (f.value? 'i').getD "abort".toList
    mark := if f.has 'z' then '\x00' else '\n' }

variable (s : Settings)

/-- A text with blanks at the side that is not aligned. -/
def pad (width : Nat) (isLeft : Bool) (text : List Char) : List Char :=
  if isLeft then text ++ List.replicate (width - text.length) ' ' else Line.padLeft width text

/-- A field with its number written anew. -/
def convert (isFirst : Bool) (field : List Char) : Except String (List Char) := do
  let text := field.dropWhile Text.isBlank
  let bare :=
    if !s.suffix.isEmpty && s.suffix.reverse.isPrefixOf text.reverse then
      text.take (text.length - s.suffix.length)
    else text
  match read s.fromScale bare with
  | .error fault => throw (fault.message bare)
  | .ok q =>
      let q :=
        if s.fromUnit = 1 ∧ s.toUnit = 1 then q
        else { q with num := q.num * s.fromUnit, den := q.den * s.toUnit }
      let number := write s.style q ++ s.suffix
      let number :=
        match s.padding with
        | some (width, isLeft) =>
            if s.isFilledWithZeros && !isLeft then
              let digits := number.dropWhile (· == '-')
              let sign := number.take (number.length - digits.length)
              sign ++ List.replicate (width - number.length) '0' ++ digits
            else pad width isLeft number
        | none =>
            -- A field that has something in front of it keeps its width.
            if s.delimiter.isNone && (!isFirst || text.length < field.length) then
              Line.padLeft field.length number
            else number
      return s.around.1 ++ number ++ s.around.2

/-- The fields of a line where blanks separate them; all but the first of several
blanks belong to the field behind them. -/
def blankFields : Nat → List Char → List (List Char)
  | 0, _ => []
  | fuel + 1, cs =>
      let front := cs.takeWhile Text.isBlank
      let word := (cs.drop front.length).takeWhile (!Text.isBlank ·)
      match cs.drop (front.length + word.length) with
      | [] => [front ++ word]
      | _ :: rest => (front ++ word) :: blankFields fuel rest

/-- A line with its fields converted, and what was wrong. -/
def convertLine (line : List Char) : List Char × List String :=
  let fields :=
    match s.delimiter with
    | some c => Text.pieces (· == c) line
    | none => blankFields (line.length + 1) line
  let results := fields.zipIdx.map fun (field, i) =>
    if Cut.isIn s.fields i then
      match convert s (i == 0) field with
      | .ok text => (text, [])
      | .error message => (field, [message])
    else (field, [])
  (List.intercalate [s.delimiter.getD ' '] (results.map Prod.fst), results.flatMap Prod.snd)

/-- What is written, what is complained about, and whether it goes on to the end. -/
structure Outcome where
  output : List Char
  messages : List String
  isAborted : Bool

/-- Convert lines one after the other. -/
def convertLines : List (List Char) → Outcome
  | [] => { output := [], messages := [], isAborted := false }
  | line :: lines =>
      let (text, faults) := convertLine s line
      if !faults.isEmpty && s.invalid == "abort".toList then
        { output := [], messages := faults.take 1, isAborted := true }
      else
        let rest := convertLines lines
        let faults := if s.invalid == "ignore".toList then [] else faults
        { rest with output := text ++ s.mark :: rest.output, messages := faults ++ rest.messages }

/-- Convert the arguments, or else the lines of the input. -/
def run (words text : List (List Char)) : Outcome :=
  if words.isEmpty then
    let outcome := convertLines s (text.drop s.headers)
    { outcome with output := Line.joinEndedBy s.mark (text.take s.headers) ++ outcome.output }
  else convertLines s words

end PlanOrbits.Shell.Scaling
