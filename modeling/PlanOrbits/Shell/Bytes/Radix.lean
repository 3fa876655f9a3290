import PlanOrbits.Text.Digits

/-!
# Bytes as digits

Bytes written in an alphabet whose size is a power of two. The bits of the bytes are
cut into digits; a group of bytes becomes a whole number of digits, and the last
group is filled up with a sign of its own.
-/

namespace PlanOrbits.Bytes

/-- How bytes are written as digits. -/
structure Radix where
  alphabet : List Char
  /-- How many bits a digit holds. -/
  bits : Nat
  /-- How many digits a group has; one if nothing is filled up. -/
  group : Nat

namespace Radix

/-- The letters and the digits. -/
def letters : List Char := "ABCDEFGHIJKLMNOPQRSTUVWXYZ".toList

/-- Digits of six bits. -/
def base64 : Radix where
  alphabet := letters ++ "abcdefghijklmnopqrstuvwxyz0123456789+/".toList
  bits := 6
  group := 4

/-- Digits of six bits that may stand in addresses and names of files. -/
def base64url : Radix where
  alphabet := letters ++ "abcdefghijklmnopqrstuvwxyz0123456789-_".toList
  bits := 6
  group := 4

/-- Digits of five bits. -/
def base32 : Radix where
  alphabet := letters ++ "234567".toList
  bits := 5
  group := 8

/-- Digits of five bits whose order is that of their characters. -/
def base32hex : Radix where
  alphabet := "0123456789ABCDEFGHIJKLMNOPQRSTUV".toList
  bits := 5
  group := 8

/-- Digits of four bits. -/
def base16 : Radix where
  alphabet := "0123456789ABCDEF".toList
  bits := 4
  group := 1

variable (r : Radix)

/-- The lowest bits of a number, the highest of them first. -/
def bitsOf (width n : Nat) : List Bool :=
  (List.range width).reverse.map fun i => n.testBit i

/-- The number with the given bits. -/
def ofBits (bits : List Bool) : Nat := bits.foldl (fun n b => 2 * n + b.toNat) 0

/-- Bits in groups of the given width; the last group may be shorter. -/
def cut (width : Nat) : Nat → List Bool → List (List Bool)
  | 0, _ | _, [] => []
  | fuel + 1, bits => bits.take width :: cut width fuel (bits.drop width)

/-- Bytes as digits. -/
def encode (bytes : List UInt8) : List Char :=
  let bits := bytes.flatMap fun b => bitsOf 8 b.toNat
  let digits := (cut r.bits (bits.length + 1) bits).map fun group =>
    r.alphabet.getD (ofBits (group ++ List.replicate (r.bits - group.length) false)) '='
  digits ++ List.replicate ((r.group - digits.length % r.group) % r.group) '='

/-- The bytes that digits stand for, and whether the digits are well formed. What
comes before a fault is decoded all the same. -/
def decode (digits : List Char) : List UInt8 × Bool :=
  let front := digits.takeWhile r.alphabet.contains
  let rest := digits.drop front.length
  let bits := front.flatMap fun c => bitsOf r.bits ((r.alphabet.idxOf? c).getD 0)
  let whole := (cut 8 (bits.length + 1) bits).filter (·.length == 8)
  (whole.map fun group => (ofBits group).toUInt8,
    rest.all (· == '=') && digits.length % r.group == 0)

end Radix

end PlanOrbits.Bytes
