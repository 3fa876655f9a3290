import PlanOrbits.Shell.Line

/-!
# Prime factors

The prime factors of a number in their order. Small divisors are taken out one by one.
What is left is tested for being a prime; if it is none, a divisor is found among the
differences of a sequence that repeats itself sooner modulo the divisor than modulo the
number.
-/

namespace PlanOrbits.Shell.Factoring

/-- How often a divisor can be taken out of a number, and what is left. -/
def takeOut (d : Nat) : Nat → Nat → Nat × Nat
  | 0, n => (0, n)
  | fuel + 1, n =>
      if 1 < d && 0 < n && n % d == 0 then
        let (count, rest) := takeOut d fuel (n / d)
        (count + 1, rest)
      else (0, n)

/-- A power modulo a number. -/
def powerMod (base modulus : Nat) : Nat → Nat → Nat
  | 0, _ => 1 % modulus
  | fuel + 1, exponent =>
      if exponent = 0 then 1 % modulus
      else
        let half := powerMod base modulus fuel (exponent / 2)
        let square := half * half % modulus
        if exponent % 2 = 0 then square else square * base % modulus

/-- Does a base fail to show that an odd number is no prime? `odd` is the number less
one without its `twos` factors of two. -/
def passes (n odd twos base : Nat) : Bool :=
  let start := powerMod base n 256 odd
  let squares := (List.range twos).map fun k => powerMod start n 256 (Nat.pow 2 k)
  base % n == 0 || start == 1 || squares.contains (n - 1)

/-- The bases that are enough to test all numbers that are not too large. -/
def bases : List Nat := [2, 3, 5, 7, 11, 13, 17, 19, 23, 29, 31, 37, 41, 43, 47, 53]

/-- Is an odd number a prime? -/
def isPrime (n : Nat) : Bool :=
  let (twos, odd) := takeOut 2 256 (n - 1)
  1 < n && bases.all (passes n odd twos)

/-- A divisor of a number that has small ones at most, found where the sequence
`x * x + c` repeats itself modulo the divisor. -/
def findDivisor? (n c : Nat) : Nat → (slow fast : Nat) → Option Nat
  | 0, _, _ => none
  | fuel + 1, slow, fast =>
      let next := fun (x : Nat) => (x * x + c) % n
      let slow := next slow
      let fast := next (next fast)
      let d := Nat.gcd (if slow < fast then fast - slow else slow - fast) n
      if d = 1 then findDivisor? n c fuel slow fast
      else if d = n then none
      else some d

/-- The prime factors of a number without small divisors, in no order. -/
def largeFactors : Nat → Nat → List Nat
  | 0, n => [n]
  | fuel + 1, n =>
      if n ≤ 1 then []
      else if isPrime n then [n]
      else
        match (List.range 20).findSome? fun c => findDivisor? n (c + 1) 2000000 2 2 with
        | some d => largeFactors fuel d ++ largeFactors fuel (n / d)
        | none => [n]

/-- The divisors from `d` on, each as often as it can be taken out, and what is left of
the number. -/
def smallFactors : Nat → (d n : Nat) → List Nat × Nat
  | 0, _, n => ([], n)
  | fuel + 1, d, n =>
      if n < d * d then ([], n)
      else
        let (count, rest) := takeOut d 256 n
        let (factors, left) := smallFactors fuel (if d = 2 then 3 else d + 2) rest
        (List.replicate count d ++ factors, left)

/-- The prime factors of a number in their order. -/
def factors (n : Nat) : List Nat :=
  let (small, left) := smallFactors 5000 2 n
  small ++ (largeFactors 64 left).mergeSort (· ≤ ·)

/-- Factors with their exponents. -/
def withExponents : List Nat → List (Nat × Nat)
  | [] => []
  | p :: ps =>
      match withExponents ps with
      | (q, n) :: rest => if p = q then (q, n + 1) :: rest else (p, 1) :: (q, n) :: rest
      | [] => [(p, 1)]

/-- A number and its factors as a line. -/
def line (hasExponents : Bool) (n : Nat) : List Char :=
  let factors := if n = 0 then [] else factors n
  let shown :=
    if hasExponents then
      (withExponents factors).map fun (p, count) =>
        Text.decimal p ++ if count = 1 then [] else '^' :: Text.decimal count
    else factors.map Text.decimal
  Line.ended (Text.decimal n ++ ':' :: shown.flatMap (' ' :: ·))

end PlanOrbits.Shell.Factoring
