import PlanOrbits.Number.Binary64
import PlanOrbits.Number.Shortest

/-!
# Rounded decimals

Decimals with a given number of digits. The exact value of a number is a quotient of
natural numbers; it is scaled by a power of ten and rounded once, to the nearest
natural number and on a tie to the even one.

* `fixedText` has a given number of digits behind the point;
* `scientificText` has one digit in front of the point, and an exponent;
* `generalText` is the shorter of the two for a given number of digits in all, and
  ends in no zero behind the point.

A sign is not a part of these texts.
-/

namespace PlanOrbits.Rounded

/-- The magnitude of a finite number as a quotient. -/
def quotient (x : Float) : Nat × Nat :=
  let (m, q) := Shortest.magnitude x
  Binary64.shifted m 1 (-q)

/-- A finite number without its fraction. -/
def truncated (x : Float) : Int :=
  let (num, den) := quotient x
  if x < 0 then -(num / den : Nat) else (num / den : Nat)

/-- What is left of the magnitude of a finite number after multiples of another one
are taken away. It is exact. -/
def remainder (x y : Float) : Float :=
  let (m, q) := Shortest.magnitude x
  let (n, r) := Shortest.magnitude y
  let least := min q r
  let left := m * Nat.pow 2 (q - least).toNat % (n * Nat.pow 2 (r - least).toNat)
  (Float.ofNat left).scaleB least

/-- The quotient of two numbers after a scaling by a power of ten, rounded. -/
def scaled (num den : Nat) (exponent : Int) : Nat :=
  Binary64.nearest (num * Nat.pow 10 exponent.toNat) (den * Nat.pow 10 (-exponent).toNat)

/-- The largest `k` with `10 ^ k ≤ num / den`, for positive `num` and `den`. -/
def leadingExponent (num den : Nat) : Int :=
  let estimate : Int := ((Text.decimal num).length : Int) - (Text.decimal den).length
  let isReached :=
    den * Nat.pow 10 estimate.toNat ≤ num * Nat.pow 10 (-estimate).toNat
  if isReached then estimate else estimate - 1

/-- So many leading digits of a number, and the exponent of the first of them. -/
def leadingDigits (count : Nat) (x : Float) : Nat × Int :=
  let (num, den) := quotient x
  if num = 0 then (0, 0)
  else
    let k := leadingExponent num den
    let d := scaled num den (count - 1 - k)
    if Nat.pow 10 count ≤ d then (d / 10, k + 1) else (d, k)

/-- Digits with zeros in front, up to a length. -/
def padded (length n : Nat) : List Char :=
  let digits := Text.decimal n
  List.replicate (length - digits.length) '0' ++ digits

/-- Digits with a point in front of the last ones. -/
def withPoint (places : Nat) (digits : List Char) : List Char :=
  if places = 0 then digits
  else digits.take (digits.length - places) ++ '.' :: digits.drop (digits.length - places)

/-- A number with so many digits behind the point. -/
def fixedText (places : Nat) (x : Float) : List Char :=
  let (num, den) := quotient x
  withPoint places (padded (places + 1) (scaled num den places))

/-- An exponent with its sign and at least two digits. -/
def exponentText (k : Int) : List Char :=
  'e' :: (if k < 0 then '-' else '+') :: padded 2 k.natAbs

/-- A number with one digit in front of the point and so many behind it. -/
def scientificText (places : Nat) (x : Float) : List Char :=
  let (d, k) := leadingDigits (places + 1) x
  withPoint places (padded (places + 1) d) ++ exponentText k

/-- Drop the zeros at the end of the digits behind a point, and a point at the
end. -/
def dropZeros (cs : List Char) : List Char :=
  if cs.contains '.' then
    ((cs.reverse.dropWhile (· == '0')).dropWhile (· == '.')).reverse
  else cs

/-- A number with so many digits in all. -/
def generalText (precision : Nat) (keepsZeros : Bool) (x : Float) : List Char :=
  let precision := max 1 precision
  let trim := fun (cs : List Char) => if keepsZeros then cs else dropZeros cs
  let (d, k) := leadingDigits precision x
  if -4 ≤ k ∧ k < precision then trim (fixedText (precision - 1 - k).toNat x)
  else trim (withPoint (precision - 1) (padded precision d)) ++ exponentText k

end PlanOrbits.Rounded
