import PlanOrbits.Text.Blank
import PlanOrbits.Text.Digits

/-!
# Numbers at the front of texts

The longest beginning of a text that is a number, and what is behind it. A number is
written with decimal digits, a point and an exponent of ten; with hexadecimal digits
and an exponent of two; or it is one of the names of infinity and of what is no
number. A text that begins with no number has the number zero in front of it, and all
of it is behind.
-/

namespace PlanOrbits.Front

/-- An exponent behind one of two letters, in front of a text, and what is behind it.
Without digits there is no exponent. -/
def exponent (lower upper : Char) (cs : List Char) : Int × List Char :=
  match cs with
  | c :: rest =>
      if c == lower || c == upper then
        let (sign, digits) : Int × List Char :=
          match rest with
          | '-' :: ds => (-1, ds)
          | '+' :: ds => (1, ds)
          | ds => (1, ds)
        let ds := digits.takeWhile Text.isDigit
        match Text.digits? ds with
        | some values => (sign * (min (Text.number values) 100000 : Nat), digits.drop ds.length)
        | none => (0, cs)
      else (0, cs)
  | [] => (0, [])

/-- Digits with a point before, between or behind them: those before it, those behind
it, and what is left. -/
def withPoint (isDigit : Char → Bool) (cs : List Char) : List Char × List Char × List Char :=
  let whole := cs.takeWhile isDigit
  match cs.drop whole.length with
  | '.' :: rest =>
      let fraction := rest.takeWhile isDigit
      if whole.isEmpty && fraction.isEmpty then ([], [], cs)
      else (whole, fraction, rest.drop fraction.length)
  | rest => (whole, [], rest)

/-- A decimal number without a sign. -/
def decimal (cs : List Char) : Float × List Char :=
  let (whole, fraction, rest) := withPoint Text.isDigit cs
  if whole.isEmpty && fraction.isEmpty then (0, cs)
  else
    let (exponent, rest) := exponent 'e' 'E' rest
    let n := Text.number ((whole ++ fraction).filterMap Text.digit?)
    let places : Int := exponent - fraction.length
    (Float.ofScientific n (places < 0) places.natAbs, rest)

/-- A hexadecimal number without a sign, if there is one. -/
def hexadecimal? : List Char → Option (Float × List Char)
  | '0' :: x :: cs =>
      let (whole, fraction, rest) := withPoint (fun c => (Text.hexDigit? c).isSome) cs
      if (x == 'x' || x == 'X') && !(whole.isEmpty && fraction.isEmpty) then
        let (exponent, rest) := exponent 'p' 'P' rest
        let n := ((whole ++ fraction).filterMap Text.hexDigit?).foldl (16 * · + ·) 0
        some ((Float.ofNat n).scaleB (exponent - 4 * fraction.length), rest)
      else none
  | _ => none

/-- A name of infinity or of what is no number, in any case, if there is one. -/
def named? (cs : List Char) : Option (Float × List Char) :=
  let lower := cs.map Char.toLower
  let infinite : Float := 1 / 0
  if "infinity".toList.isPrefixOf lower then some (infinite, cs.drop 8)
  else if "inf".toList.isPrefixOf lower then some (infinite, cs.drop 3)
  else if "nan".toList.isPrefixOf lower then some (0 / 0, cs.drop 3)
  else none

/-- A number without a sign. -/
def unsigned (cs : List Char) : Float × List Char :=
  ((named? cs).or (hexadecimal? cs)).getD (decimal cs)

/-- A number behind blanks, with a sign or without one. -/
def signed (cs : List Char) : Float × List Char :=
  let (isNegative, digits) :=
    match cs.dropWhile Text.isBlank with
    | '-' :: rest => (true, rest)
    | '+' :: rest => (false, rest)
    | rest => (false, rest)
  let (x, rest) := unsigned digits
  if rest.length == digits.length then (0, cs) else (if isNegative then -x else x, rest)

end PlanOrbits.Front
