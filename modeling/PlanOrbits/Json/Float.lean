import PlanOrbits.Json.Basic
import PlanOrbits.Number.Shortest

/-!
# Floating point numbers in JSON

Reading takes as many leading digits as fit a 64-bit word, rounds them once, and
scales the result by one power of ten, so that a long decimal may miss the
nearest number by one unit in the last place. Writing takes the fewest digits
that determine the number, so that every number written in at most nineteen
digits and a small exponent is read back.
-/

namespace PlanOrbits

/-! ## Reading -/

/-- The digits of a numeral that fit a 64-bit word, as a number, and the digits
that do not. -/
def takeWord (start : Nat) : List Nat → Nat × List Nat
  | [] => (start, [])
  | d :: ds =>
      if 10 * start + d < Text.wordLimit then takeWord (10 * start + d) ds else (start, d :: ds)

/-- The power of ten nearest to `10 ^ n`. -/
def powerOfTen (n : Nat) : Float := Float.ofScientific 1 false n

/-- `x · 10 ^ exponent` in steps of at most 308 places, or `none` if it is too
large for a finite number. Three steps take any 64-bit number down to zero. -/
def scale? (x : Float) (exponent : Int) : (steps : Nat) → Option Float
  | 0 => some x
  | steps + 1 =>
      if exponent.natAbs ≤ 308 then
        if 0 ≤ exponent then
          let scaled := x * powerOfTen exponent.natAbs
          if scaled.isInf then none else some scaled
        else some (x / powerOfTen exponent.natAbs)
      else if x == 0.0 then some x
      else if 0 ≤ exponent then none
      else scale? (x / powerOfTen 308) (exponent + 308) steps

/-- An exponent part as a signed number; beyond 32 bits only its sign counts. -/
inductive Exponent where
  | within (value : Int)
  | beyond (negative : Bool)

/-- The exponent part of a numeral. -/
def Numeral.exponentPart (n : Numeral) : Exponent :=
  match n.exponent with
  | none => .within 0
  | some (negative, digits) =>
      let size := Text.number digits
      if Nat.pow 2 31 ≤ size then .beyond negative
      else .within (if negative then -size else size)

/-- The number that a numeral is read as, or `none` if it is too large. -/
def Numeral.toFloat? (n : Numeral) : Option Float :=
  let (whole, overflow) := takeWord 0 n.whole
  let (significand, unread) := takeWord whole n.fraction
  let places : Int := overflow.length - (n.fraction.length - unread.length : Nat)
  let magnitude : Option Float :=
    match n.exponentPart with
    | .within exponent => scale? (Float.ofNat significand) (places + exponent) 4
    | .beyond negative => if significand = 0 ∨ negative then some 0.0 else none
  magnitude.map fun x => if n.negative then -x else x

/-! ## Writing -/

/-- Numbers with the point after at most sixteen digits are written without an
exponent. -/
def lastPoint : Int := 16

/-- Numbers with fewer than five zeros behind the point are written without an
exponent. -/
def firstPoint : Int := -4

/-- The digits of a natural number. -/
def digitsOf (n : Nat) : List Nat := (Text.decimal n).filterMap Text.digit?

/-- The decimal `digits · 10 ^ exponent`, with at least one digit on each side of
the point or in scientific notation. -/
def Numeral.ofDecimal (negative : Bool) (digits : List Nat) (exponent : Int) : Numeral :=
  let point : Int := digits.length + exponent
  if 0 ≤ exponent ∧ point ≤ lastPoint then
    { negative, whole := digits ++ List.replicate exponent.toNat 0, fraction := [0],
      exponent := none }
  else if 0 < point ∧ point ≤ lastPoint then
    { negative, whole := digits.take point.toNat, fraction := digits.drop point.toNat,
      exponent := none }
  else if firstPoint ≤ point ∧ point ≤ 0 then
    { negative, whole := [0], fraction := List.replicate (-point).toNat 0 ++ digits,
      exponent := none }
  else
    { negative, whole := digits.take 1, fraction := digits.drop 1,
      exponent := some (point - 1 < 0, digitsOf (point - 1).natAbs) }

/-- The spelling of a finite number. -/
def Numeral.ofFloat (x : Float) : Numeral :=
  let negative := x.toBits >>> 63 == 1
  if x == 0.0 then { negative, whole := [0], fraction := [0], exponent := none }
  else
    let (d, k) := Shortest.digits x
    Numeral.ofDecimal negative (digitsOf d) k

/-- A number as a document; what is not finite has no number and becomes null. -/
def Json.float (x : Float) : Json :=
  if x.isFinite then .number (Numeral.ofFloat x) else .null

end PlanOrbits
