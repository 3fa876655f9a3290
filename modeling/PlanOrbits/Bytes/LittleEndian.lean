/-!
# Little-endian words

Natural numbers as byte strings of a fixed width, the lowest byte first, and
readers that take such words from the front of a byte string.
-/

namespace PlanOrbits.Bytes

/-- The lowest `width` bytes of a number, the lowest first. -/
def word : (width : Nat) → Nat → List UInt8
  | 0, _ => []
  | width + 1, n => UInt8.ofNat (n % 256) :: word width (n / 256)

/-- The number that a byte string denotes, the lowest byte first. -/
def value : List UInt8 → Nat
  | [] => 0
  | b :: bs => b.toNat + 256 * value bs

@[simp] theorem length_word (width n : Nat) : (word width n).length = width := by
  induction width generalizing n with
  | zero => rfl
  | succ width ih => simp [word, ih]

/-- A word denotes the number that it was made of, if that fits. -/
theorem value_word {width n : Nat} (h : n < Nat.pow 256 width) : value (word width n) = n := by
  induction width generalizing n with
  | zero =>
      have h : n = 0 := Nat.lt_one_iff.1 h
      simp [word, value, h]
  | succ width ih =>
      have hdiv : n / 256 < Nat.pow 256 width := by
        rw [Nat.div_lt_iff_lt_mul (by decide)]
        exact h
      have hmod : (UInt8.ofNat (n % 256)).toNat = n % 256 := by
        simp only [UInt8.toNat_ofNat']
        omega
      rw [word, value, ih hdiv, hmod]
      omega

/-- A reader of values from the front of a byte string. -/
abbrev Reader (α : Type) := List UInt8 → Option (α × List UInt8)

/-- Read a word of `width` bytes. -/
def readWord (width : Nat) : Reader Nat := fun bytes =>
  let word := bytes.take width
  if word.length < width then none else some (value word, bytes.drop width)

/-- Read two values, one behind the other. -/
def readPair {α β : Type} (first : Reader α) (second : Reader β) : Reader (α × β) := fun bytes => do
  let (a, rest) ← first bytes
  let (b, rest) ← second rest
  return ((a, b), rest)

/-- Read so many values. -/
def readMany {α : Type} (item : Reader α) : Nat → Reader (List α)
  | 0, bytes => some ([], bytes)
  | n + 1, bytes => do
      let (a, rest) ← item bytes
      let (as, rest) ← readMany item n rest
      return (a :: as, rest)

/-- Read an eight-byte count and so many values. -/
def readList {α : Type} (item : Reader α) : Reader (List α) := fun bytes => do
  let (count, rest) ← readWord 8 bytes
  readMany item count rest

/-- Write an eight-byte count and the values. -/
def writeList {α : Type} (item : α → List UInt8) (as : List α) : List UInt8 :=
  word 8 as.length ++ as.flatMap item

/-! ## Hexadecimal text -/

/-- A byte as two lower-case hexadecimal digits. -/
def hexByte (b : UInt8) : List Char :=
  [Nat.digitChar (b.toNat / 16), Nat.digitChar (b.toNat % 16)]

/-- A byte string as lower-case hexadecimal text. -/
def hex (bytes : List UInt8) : String := String.ofList (bytes.flatMap hexByte)

end PlanOrbits.Bytes
