/-!
# Digits

The ASCII digits and the numerals made of them. A number of the 64-bit range is
read by `wordOf?`, an exponent of the 32-bit range by `exponentOf?`; both take
an optional sign before at least one digit and nothing else.
-/

namespace PlanOrbits.Text

/-- The value of an ASCII digit. -/
def digit? (c : Char) : Option Nat :=
  if '0' ≤ c ∧ c ≤ '9' then some (c.toNat - '0'.toNat) else none

/-- Is the character an ASCII digit? -/
def isDigit (c : Char) : Bool := (digit? c).isSome

/-- A digit is worth less than ten. -/
theorem digit?_lt {c : Char} {d : Nat} (h : digit? c = some d) : d < 10 := by
  simp only [digit?] at h
  split at h
  · rename_i hc
    have h9 : c.toNat ≤ '9'.toNat := hc.2
    simp only [Option.some.injEq] at h
    have : '9'.toNat = 57 := rfl
    have : '0'.toNat = 48 := rfl
    omega
  · simp at h

/-- The value of a hexadecimal digit in either case. -/
def hexDigit? (c : Char) : Option Nat :=
  if '0' ≤ c ∧ c ≤ '9' then some (c.toNat - '0'.toNat)
  else if 'a' ≤ c ∧ c ≤ 'f' then some (c.toNat - 'a'.toNat + 10)
  else if 'A' ≤ c ∧ c ≤ 'F' then some (c.toNat - 'A'.toNat + 10)
  else none

/-- The number that a list of digits denotes after the digits worth `start`. -/
def numberFrom (start : Nat) (digits : List Nat) : Nat :=
  digits.foldl (fun n d => 10 * n + d) start

/-- The number that a list of digits denotes, the first digit the highest. -/
def number (digits : List Nat) : Nat := numberFrom 0 digits

/-- The digits of a text that holds nothing but digits, and at least one. -/
def digits? : List Char → Option (List Nat)
  | [] => none
  | cs => cs.mapM digit?

/-- One more than the largest number of a 64-bit word. -/
def wordLimit : Nat := Nat.pow 2 64

/-- A number below `wordLimit`: digits, with an optional `+` before them. -/
def wordOf? (cs : List Char) : Option Nat := do
  let unsigned :=
    match cs with
    | '+' :: rest => rest
    | _ => cs
  let n := number (← digits? unsigned)
  if n < wordLimit then some n else none

/-- A signed 32-bit number: digits, with an optional sign before them. -/
def exponentOf? (cs : List Char) : Option Int := do
  let (negative, unsigned) :=
    match cs with
    | '+' :: rest => (false, rest)
    | '-' :: rest => (true, rest)
    | _ => (false, cs)
  let n := number (← digits? unsigned)
  if negative then
    if n ≤ Nat.pow 2 31 then some (-n) else none
  else
    if n < Nat.pow 2 31 then some n else none

/-- The decimal text of a number. -/
def decimal (n : Nat) : List Char := Nat.toDigits 10 n

end PlanOrbits.Text
