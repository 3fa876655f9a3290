import PlanOrbits.Text.Blank
import PlanOrbits.Text.Digits

/-!
# Binary floating point

Numbers of the 64-bit binary format: a sign, 53 bits of significand, exponents
from `-1074`. Every operation takes the exact result as a quotient of natural
numbers and rounds once, to the nearest number and on a tie to the even
significand (`round`). The module holds what is needed to read a magnitude such
as `4.5e2` or `3.2*10^45`: decimal reading, products, integer powers of ten, and
truncation to a 64-bit word.
-/

namespace PlanOrbits

/-- A number of the format. A finite one is `± significand · 2 ^ exponent`. -/
inductive Binary64 where
  | nan
  | infinite (negative : Bool)
  | finite (negative : Bool) (significand : Nat) (exponent : Int)
  deriving DecidableEq, Repr

namespace Binary64

/-- The zero of a sign. -/
def zero (negative : Bool) : Binary64 := finite negative 0 0

/-- One. -/
def one : Binary64 := finite false 1 0

/-- The quotient `num / den · 2 ^ (-shift)` as a quotient of natural numbers. -/
def shifted (num den : Nat) (shift : Int) : Nat × Nat :=
  if 0 ≤ shift then (num, den * Nat.pow 2 shift.toNat) else (num * Nat.pow 2 (-shift).toNat, den)

/-- The natural number nearest to `num / den`, the even one of two. -/
def nearest (num den : Nat) : Nat :=
  let q := num / den
  let r := num % den
  if den < 2 * r ∨ (2 * r = den ∧ q % 2 = 1) then q + 1 else q

/-- The largest `k` with `2 ^ k ≤ num / den`, for positive `num` and `den`. -/
def floorLog2 (num den : Nat) : Int :=
  let estimate : Int := (num.log2 : Int) - den.log2
  let (n, d) := shifted num den estimate
  if d ≤ n then estimate else estimate - 1

/-- The number of the format nearest to `± num / den`. -/
def round (negative : Bool) (num den : Nat) : Binary64 :=
  if num = 0 then zero negative
  else
    let exponent := max (floorLog2 num den - 52) (-1074)
    let (n, d) := shifted num den exponent
    let significand := nearest n d
    if Nat.pow 2 53 ≤ significand then
      if 971 ≤ exponent then infinite negative
      else finite negative (Nat.pow 2 52) (exponent + 1)
    else if 971 < exponent then infinite negative
    else finite negative significand exponent

/-- The number of the format nearest to `± significand · 10 ^ exponent`. Beyond
400 decimal places on either side the answer is known without the quotient. -/
def ofDecimal (negative : Bool) (significand : Nat) (exponent : Int) : Binary64 :=
  let places : Int := (Text.decimal significand).length + exponent
  if significand = 0 ∨ places < -400 then zero negative
  else if 400 < places then infinite negative
  else if 0 ≤ exponent then round negative (significand * Nat.pow 10 exponent.toNat) 1
  else round negative significand (Nat.pow 10 (-exponent).toNat)

/-- The product, rounded. -/
def mul : Binary64 → Binary64 → Binary64
  | nan, _ | _, nan => nan
  | infinite s, infinite t => infinite (s != t)
  | infinite s, finite t m _ | finite t m _, infinite s =>
      if m = 0 then nan else infinite (s != t)
  | finite s m e, finite t n f =>
      let (num, den) := shifted (m * n) 1 (-(e + f))
      round (s != t) num den

/-- One over a number, rounded. -/
def recip : Binary64 → Binary64
  | nan => nan
  | infinite s => zero s
  | finite s m e =>
      if m = 0 then infinite s
      else
        let (num, den) := shifted 1 m e
        round s num den

/-- The product of `acc` and the `n`-th power of `base`, by squaring: every
square and every product is rounded. Only the lowest `bits` bits of `n` count. -/
def powFrom (acc base : Binary64) (n : Nat) : (bits : Nat) → Binary64
  | 0 => acc
  | bits + 1 =>
      let acc := if n % 2 = 1 then acc.mul base else acc
      if n / 2 = 0 then acc else powFrom acc (base.mul base) (n / 2) bits

/-- An integer power of ten with a 32-bit exponent. A negative power is one over
the positive one. -/
def tenPow (exponent : Int) : Binary64 :=
  let positive := powFrom one (finite false 10 0) exponent.natAbs 32
  if exponent < 0 then positive.recip else positive

/-- The whole part as a 64-bit word: fractions are cut off, what lies outside the
range goes to its nearer end, and what is no number goes to zero. -/
def toWord : Binary64 → UInt64
  | nan => 0
  | infinite negative => if negative then 0 else (Nat.pow 2 64 - 1 : Nat).toUInt64
  | finite negative m e =>
      if negative then 0
      else
        let whole := if 0 ≤ e then m * Nat.pow 2 e.toNat else m / Nat.pow 2 (-e).toNat
        (min whole (Nat.pow 2 64 - 1)).toUInt64

/-! ## Reading -/

/-- The names of the values that are not finite, in lower case. -/
def named? (negative : Bool) (cs : List Char) : Option Binary64 :=
  let name := String.ofList (cs.map Char.toLower)
  if name = "nan" then some nan
  else if name = "inf" ∨ name = "infinity" then some (infinite negative)
  else none

/-- An exponent part: nothing, or `e` or `E` and a signed number. -/
def readExponent? : List Char → Option Int
  | [] => some 0
  | c :: cs =>
      if c = 'e' ∨ c = 'E' then
        match cs with
        | '-' :: rest => (Text.digits? rest).map fun ds => -(Text.number ds : Int)
        | '+' :: rest => (Text.digits? rest).map fun ds => (Text.number ds : Int)
        | rest => (Text.digits? rest).map fun ds => (Text.number ds : Int)
      else none

/-- Digits with an optional point before, between or behind them, then an
optional exponent part. -/
def unsigned? (negative : Bool) (cs : List Char) : Option Binary64 :=
  let (whole, rest) := cs.span Text.isDigit
  let (fraction, rest) :=
    match rest with
    | '.' :: rest => rest.span Text.isDigit
    | _ => ([], rest)
  let digits := (whole ++ fraction).filterMap Text.digit?
  if digits.isEmpty then none
  else
    (readExponent? rest).map fun exponent =>
      ofDecimal negative (Text.number digits) (exponent - fraction.length)

/-- A number as people write it: an optional sign, then decimal notation with an
optional exponent, or one of `inf`, `infinity` and `nan` in any case. -/
def read? (cs : List Char) : Option Binary64 :=
  let (negative, rest) :=
    match cs with
    | '-' :: rest => (true, rest)
    | '+' :: rest => (false, rest)
    | _ => (false, cs)
  (named? negative rest).or (unsigned? negative rest)

end Binary64

end PlanOrbits
