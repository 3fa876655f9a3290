/-!
# SHA-256

The hash function of the Secure Hash Standard with 256-bit digests. A message is
padded to blocks of 64 bytes; each block is expanded to 64 words, which are mixed
one after the other into a state of eight words.
-/

namespace PlanOrbits.Sha256

/-- The round constants: the fractional parts of the cube roots of the first 64
primes. -/
def roundConstants : List UInt32 :=
  [
    0x428a2f98, 0x71374491, 0xb5c0fbcf, 0xe9b5dba5, 0x3956c25b, 0x59f111f1, 0x923f82a4,
    0xab1c5ed5, 0xd807aa98, 0x12835b01, 0x243185be, 0x550c7dc3, 0x72be5d74, 0x80deb1fe,
    0x9bdc06a7, 0xc19bf174, 0xe49b69c1, 0xefbe4786, 0x0fc19dc6, 0x240ca1cc, 0x2de92c6f,
    0x4a7484aa, 0x5cb0a9dc, 0x76f988da, 0x983e5152, 0xa831c66d, 0xb00327c8, 0xbf597fc7,
    0xc6e00bf3, 0xd5a79147, 0x06ca6351, 0x14292967, 0x27b70a85, 0x2e1b2138, 0x4d2c6dfc,
    0x53380d13, 0x650a7354, 0x766a0abb, 0x81c2c92e, 0x92722c85, 0xa2bfe8a1, 0xa81a664b,
    0xc24b8b70, 0xc76c51a3, 0xd192e819, 0xd6990624, 0xf40e3585, 0x106aa070, 0x19a4c116,
    0x1e376c08, 0x2748774c, 0x34b0bcb5, 0x391c0cb3, 0x4ed8aa4a, 0x5b9cca4f, 0x682e6ff3,
    0x748f82ee, 0x78a5636f, 0x84c87814, 0x8cc70208, 0x90befffa, 0xa4506ceb, 0xbef9a3f7,
    0xc67178f2
  ]

/-- The eight words that are mixed. -/
structure State where
  a : UInt32
  b : UInt32
  c : UInt32
  d : UInt32
  e : UInt32
  f : UInt32
  g : UInt32
  h : UInt32
  deriving DecidableEq, Repr

/-- The state before the first block: the fractional parts of the square roots of
the first eight primes. -/
def State.initial : State :=
  { a := 0x6a09e667, b := 0xbb67ae85, c := 0x3c6ef372, d := 0xa54ff53a,
    e := 0x510e527f, f := 0x9b05688c, g := 0x1f83d9ab, h := 0x5be0cd19 }

/-- Rotate a word to the right. -/
def rotate (x : UInt32) (n : UInt32) : UInt32 := (x >>> n) ||| (x <<< (32 - n))

/-- Mix one word of the expanded message and its round constant into the state. -/
def State.round (s : State) (word constant : UInt32) : State :=
  let sum₁ := rotate s.e 6 ^^^ rotate s.e 11 ^^^ rotate s.e 25
  let choice := (s.e &&& s.f) ^^^ (~~~s.e &&& s.g)
  let temp₁ := s.h + sum₁ + choice + constant + word
  let sum₀ := rotate s.a 2 ^^^ rotate s.a 13 ^^^ rotate s.a 22
  let majority := (s.a &&& s.b) ^^^ (s.a &&& s.c) ^^^ (s.b &&& s.c)
  { a := temp₁ + (sum₀ + majority), b := s.a, c := s.b, d := s.c,
    e := s.d + temp₁, f := s.e, g := s.f, h := s.g }

/-- The sum of two states, word by word. -/
def State.add (s t : State) : State :=
  { a := s.a + t.a, b := s.b + t.b, c := s.c + t.c, d := s.d + t.d,
    e := s.e + t.e, f := s.f + t.f, g := s.g + t.g, h := s.h + t.h }

/-- The words of a state in order. -/
def State.words (s : State) : List UInt32 := [s.a, s.b, s.c, s.d, s.e, s.f, s.g, s.h]

/-- The words of a block, four bytes each, the highest byte first. -/
def wordsOf : List UInt8 → List UInt32
  | b₀ :: b₁ :: b₂ :: b₃ :: rest =>
      ((b₀.toUInt32 <<< 24) ||| (b₁.toUInt32 <<< 16) ||| (b₂.toUInt32 <<< 8) ||| b₃.toUInt32) ::
        wordsOf rest
  | _ => []

/-- The next word of the expanded message, from the ones before it. -/
def nextWord (words : Array UInt32) : UInt32 :=
  let back (n : Nat) : UInt32 := words.getD (words.size - n) 0
  let x := back 15
  let y := back 2
  let small₀ := rotate x 7 ^^^ rotate x 18 ^^^ (x >>> 3)
  let small₁ := rotate y 17 ^^^ rotate y 19 ^^^ (y >>> 10)
  back 16 + small₀ + back 7 + small₁

/-- Append so many words to the expanded message. -/
def expand (words : Array UInt32) : Nat → Array UInt32
  | 0 => words
  | n + 1 => expand (words.push (nextWord words)) n

/-- Mix one block of 64 bytes into the state. -/
def State.block (s : State) (bytes : List UInt8) : State :=
  let words := expand (wordsOf bytes).toArray 48
  s.add ((words.toList.zip roundConstants).foldl (fun t (word, k) => t.round word k) s)

/-- The bytes of a number, the highest first. -/
def bigEndian : (width : Nat) → Nat → List UInt8
  | 0, _ => []
  | width + 1, n => bigEndian width (n / 256) ++ [UInt8.ofNat (n % 256)]

/-- The message with a one bit, zeros up to the last eight bytes of a block, and
its length in bits. -/
def pad (message : List UInt8) : List UInt8 :=
  let zeros := (64 - (message.length + 9) % 64) % 64
  message ++ 0x80 :: (List.replicate zeros 0 ++ bigEndian 8 (8 * message.length))

/-- Mix so many blocks into the state. -/
def State.blocks (s : State) : Nat → List UInt8 → State
  | 0, _ => s
  | n + 1, bytes => (s.block (bytes.take 64)).blocks n (bytes.drop 64)

/-- The digest of a message from a state before the first block. -/
def State.digest (start : State) (message : List UInt8) : List UInt8 :=
  let padded := pad message
  (start.blocks (padded.length / 64) padded).words.flatMap fun w => bigEndian 4 w.toNat

/-- The digest of a message, 32 bytes. -/
def digest (message : List UInt8) : List UInt8 := State.initial.digest message

/-- The state before the first block for short digests: the second halves of the
fractional parts of the square roots of the ninth to the sixteenth prime. -/
def State.initialShort : State :=
  { a := 0xc1059ed8, b := 0x367cd507, c := 0x3070dd17, d := 0xf70e5939,
    e := 0xffc00b31, f := 0x68581511, g := 0x64f98fa7, h := 0xbefa4fa4 }

/-- The short digest of a message, 28 bytes. -/
def shortDigest (message : List UInt8) : List UInt8 := (State.initialShort.digest message).take 28

end PlanOrbits.Sha256
