import PlanOrbits.Text.Digits

/-!
# Shortest decimals

The fewest decimal digits that still read back as a given `Float`, and among
those the digits nearest to it. A positive finite number is `m · 2 ^ q`; the
decimals that round to it fill the interval between its midpoints to the two
neighbours, ends included if `m` is even. For one digit, two digits and so on,
the two neighbours of the number on that decimal grid are tried; seventeen
digits always suffice.
-/

namespace PlanOrbits.Shortest

/-- The magnitude of a finite number as `significand · 2 ^ exponent`. -/
def magnitude (x : Float) : Nat × Int :=
  let bits := x.toBits.toNat
  let fraction : Nat := bits % Nat.pow 2 52
  let biased : Nat := bits / Nat.pow 2 52 % Nat.pow 2 11
  if biased = 0 then (fraction, -1074) else (Nat.pow 2 52 + fraction, (biased : Int) - 1075)

/-- The decimals that round to a number, in quarters of its last binary place:
`low`, `mid` (the number itself) and `high` are over the same denominator. -/
structure Interval where
  low : Nat
  mid : Nat
  high : Nat
  denominator : Nat
  closed : Bool

/-- The interval around `m · 2 ^ q`. Below a power of two the numbers lie twice as
close, unless the exponent is already the least. -/
def Interval.around (m : Nat) (q : Int) : Interval :=
  let unit := Nat.pow 2 (q - 2).toNat
  let low := if m = Nat.pow 2 52 ∧ -1074 < q then 4 * m - 1 else 4 * m - 2
  { low := low * unit, mid := 4 * m * unit, high := (4 * m + 2) * unit,
    denominator := Nat.pow 2 (2 - q).toNat, closed := m % 2 = 0 }

/-- Does `d · 10 ^ k` lie in the interval? -/
def Interval.holds (i : Interval) (d : Nat) (k : Int) : Bool :=
  let point := d * Nat.pow 10 k.toNat * i.denominator
  let scale := Nat.pow 10 (-k).toNat
  if i.closed then decide (i.low * scale ≤ point ∧ point ≤ i.high * scale)
  else decide (i.low * scale < point ∧ point < i.high * scale)

/-- The largest `d` with `d · 10 ^ k` at most the number. -/
def Interval.below (i : Interval) (k : Int) : Nat :=
  i.mid * Nat.pow 10 (-k).toNat / (i.denominator * Nat.pow 10 k.toNat)

/-- Is `d · 10 ^ k`, at most the number, nearer to it than `(d + 1) · 10 ^ k`? A
tie goes to the even digit. -/
def Interval.lowerIsNearer (i : Interval) (d : Nat) (k : Int) : Bool :=
  let twice := 2 * i.mid * Nat.pow 10 (-k).toNat
  let middle := (2 * d + 1) * Nat.pow 10 k.toNat * i.denominator
  twice < middle || (twice == middle && d % 2 == 0)

/-- The first grid with a point in the interval, from `10 ^ k` downwards: the
digits found there and the exponent of the grid. -/
def Interval.search (i : Interval) (k : Int) : (tries : Nat) → Nat × Int
  | 0 => (i.below k, k)
  | tries + 1 =>
      let d := i.below k
      match i.holds d k && d != 0, i.holds (d + 1) k with
      | true, true => (if i.lowerIsNearer d k then d else d + 1, k)
      | true, false => (d, k)
      | false, true => (d + 1, k)
      | false, false => i.search (k - 1) tries

/-- Drop the final zeros of a digit string, counting them into the exponent. -/
def withoutZeros (d : Nat) (k : Int) : (tries : Nat) → Nat × Int
  | 0 => (d, k)
  | tries + 1 =>
      if d % 10 = 0 ∧ d ≠ 0 then withoutZeros (d / 10) (k + 1) tries else (d, k)

/-- An exponent of ten with `m · 2 ^ q < 10 ^ k` for every 53-bit `m`: the
logarithm of two is a little less than `0.30103`. -/
def coarse (q : Int) : Int := (q + 53) * 30103 / 100000 + 2

/-- The shortest digits `d` and the exponent `k` with `d · 10 ^ k` nearest to a
positive finite number. The search starts on a grid coarser than the number. -/
def digits (x : Float) : Nat × Int :=
  let (m, q) := magnitude x
  let (d, k) := (Interval.around m q).search (coarse q) 22
  withoutZeros d k 20

end PlanOrbits.Shortest
