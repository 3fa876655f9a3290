import PlanOrbits.Text.Digits

/-!
# Amounts

Numbers of bytes or lines as arguments give them: digits, and perhaps a unit, which is
a letter for a power of 1024, or of 1000 if a `B` follows it.
-/

namespace PlanOrbits.Shell.Amount

/-- The letters for powers of a thousand, or of 1024, from the first power on. -/
def powerLetters : List Char := ['K', 'M', 'G', 'T', 'P', 'E', 'Z', 'Y']

/-- What a unit stands for. -/
def unit? : List Char → Option Nat
  | [] | ['c'] => some 1
  | ['w'] => some 2
  | ['b'] => some 512
  | c :: rest => do
      let power := (← powerLetters.idxOf? c.toUpper) + 1
      match rest with
      | [] | ['i', 'B'] => return Nat.pow 1024 power
      | ['B'] => return Nat.pow 1000 power
      | _ => none

/-- The amount that decimal digits and a unit denote. -/
def read? (cs : List Char) : Option Nat := do
  let digits := cs.takeWhile Text.isDigit
  return Text.number (← Text.digits? digits) * (← unit? (cs.drop digits.length))

/-- The amount that digits and a unit denote, where the digits show whether they are
decimal, octal or hexadecimal. -/
def readAnyBase? (cs : List Char) : Option Nat :=
  let (base, digits) :=
    match cs with
    | '0' :: 'x' :: rest | '0' :: 'X' :: rest => (16, rest)
    | '0' :: rest => (8, '0' :: rest)
    | _ => (10, cs)
  let value := fun (c : Char) => (Text.hexDigit? c).filter (· < base)
  let front := digits.takeWhile fun c => (value c).isSome
  let n := front.foldl (fun n c => base * n + (value c).getD 0) 0
  if front.isEmpty then none else (unit? (digits.drop front.length)).map (n * ·)

end PlanOrbits.Shell.Amount
