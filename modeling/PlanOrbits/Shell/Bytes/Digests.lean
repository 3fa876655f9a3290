import PlanOrbits.Bytes.LittleEndian
import PlanOrbits.Bytes.Sha256

/-!
# Digests and checksums

The checksums and hash functions that programs show besides SHA-256: SHA-512, two sums and a
cyclic redundancy check, SHA-1, MD5 and BLAKE2b.
-/

/-!
## SHA-512

The hash function of the Secure Hash Standard with words of 64 bits, and its variant
with shorter digests. A message is padded to blocks of 128 bytes; each block is
expanded to 80 words, which are mixed one after the other into a state of eight
words.

The constants are parts of roots of the first primes, and are computed as such.
-/

namespace PlanOrbits.Sha512

/-! ### Constants -/

/-- The largest number below `2 ^ bits` whose power does not exceed a bound. -/
def root (exponent bound : Nat) : (bits : Nat) → Nat
  | 0 => 0
  | bits + 1 =>
      (List.range (bits + 1)).reverse.foldl (fun r bit =>
        let next := r + Nat.pow 2 bit
        if Nat.pow next exponent ≤ bound then next else r) 0

/-- The first 80 primes. -/
def primes : List Nat :=
  ((List.range 410).drop 2).filter fun n => ((List.range n).drop 2).all fun d => n % d != 0

/-- The first 64 bits of the fractional parts of roots of numbers. -/
def fractions (exponent : Nat) (numbers : List Nat) : List UInt64 :=
  numbers.map fun p => (root exponent (p * Nat.pow 2 (64 * exponent)) 70).toUInt64

/-- The round constants: the fractional parts of the cube roots of the first 80
primes. -/
def roundConstants : List UInt64 := fractions 3 primes

/-! ### Mixing -/

/-- The eight words that are mixed. -/
structure State where
  a : UInt64
  b : UInt64
  c : UInt64
  d : UInt64
  e : UInt64
  f : UInt64
  g : UInt64
  h : UInt64
  deriving DecidableEq, Repr

/-- The state with the given words. -/
def State.ofWords (words : List UInt64) : State :=
  let word := fun n => words.getD n 0
  { a := word 0, b := word 1, c := word 2, d := word 3
    e := word 4, f := word 5, g := word 6, h := word 7 }

/-- The fractional parts of the square roots of the first eight primes. -/
def initialWords : List UInt64 := fractions 2 (primes.take 8)

/-- The words for short digests: the fractional parts of the square roots of the next
eight primes. -/
def initialShortWords : List UInt64 := fractions 2 ((primes.drop 8).take 8)

/-- Rotate a word to the right. -/
def rotate (x : UInt64) (n : UInt64) : UInt64 := (x >>> n) ||| (x <<< (64 - n))

/-- Mix one word of the expanded message and its round constant into the state. -/
def State.round (s : State) (word constant : UInt64) : State :=
  let sum₁ := rotate s.e 14 ^^^ rotate s.e 18 ^^^ rotate s.e 41
  let choice := (s.e &&& s.f) ^^^ (~~~s.e &&& s.g)
  let temp₁ := s.h + sum₁ + choice + constant + word
  let sum₀ := rotate s.a 28 ^^^ rotate s.a 34 ^^^ rotate s.a 39
  let majority := (s.a &&& s.b) ^^^ (s.a &&& s.c) ^^^ (s.b &&& s.c)
  { a := temp₁ + (sum₀ + majority), b := s.a, c := s.b, d := s.c
    e := s.d + temp₁, f := s.e, g := s.f, h := s.g }

/-- The words of a state in order. -/
def State.words (s : State) : List UInt64 := [s.a, s.b, s.c, s.d, s.e, s.f, s.g, s.h]

/-- The sum of two states, word by word. -/
def State.add (s t : State) : State := .ofWords ((s.words.zip t.words).map fun (x, y) => x + y)

/-- The words of bytes, eight bytes each, the highest byte first. -/
def wordsOf : Nat → List UInt8 → List UInt64
  | 0, _ => []
  | n + 1, bytes =>
      (bytes.take 8).foldl (fun w b => (w <<< 8) ||| b.toUInt64) 0 :: wordsOf n (bytes.drop 8)

/-- The next word of the expanded message, from the ones before it. -/
def nextWord (words : Array UInt64) : UInt64 :=
  let back (n : Nat) : UInt64 := words.getD (words.size - n) 0
  let x := back 15
  let y := back 2
  let small₀ := rotate x 1 ^^^ rotate x 8 ^^^ (x >>> 7)
  let small₁ := rotate y 19 ^^^ rotate y 61 ^^^ (y >>> 6)
  back 16 + small₀ + back 7 + small₁

/-- Append so many words to the expanded message. -/
def expand (words : Array UInt64) : Nat → Array UInt64
  | 0 => words
  | n + 1 => expand (words.push (nextWord words)) n

/-- Mix one block of 128 bytes into the state. -/
def State.block (s : State) (bytes : List UInt8) : State :=
  let words := expand (wordsOf 16 bytes).toArray 64
  s.add ((words.toList.zip roundConstants).foldl (fun t (word, k) => t.round word k) s)

/-- The message with a one bit, zeros up to the last sixteen bytes of a block, and its
length in bits. -/
def pad (message : List UInt8) : List UInt8 :=
  let zeros := (128 - (message.length + 17) % 128) % 128
  message ++ 0x80 :: (List.replicate zeros 0 ++ Sha256.bigEndian 16 (8 * message.length))

/-- Mix so many blocks into the state. -/
def State.blocks (s : State) : Nat → List UInt8 → State
  | 0, _ => s
  | n + 1, bytes => (s.block (bytes.take 128)).blocks n (bytes.drop 128)

/-- The digest of a message from a state before the first block. -/
def State.digest (start : State) (message : List UInt8) : List UInt8 :=
  let padded := pad message
  (start.blocks (padded.length / 128) padded).words.flatMap fun w => Sha256.bigEndian 8 w.toNat

/-- The digest of a message, 64 bytes. -/
def digest (message : List UInt8) : List UInt8 := (State.ofWords initialWords).digest message

/-- The short digest of a message, 48 bytes. -/
def shortDigest (message : List UInt8) : List UInt8 :=
  ((State.ofWords initialShortWords).digest message).take 48

end PlanOrbits.Sha512

/-!
## Checksums

Short numbers that change when bytes are changed by accident: a cyclic redundancy
check that includes the length, and two sums of 16 bits.
-/

namespace PlanOrbits.Checksum

/-- The remainder after one more bit of the message has been moved out. -/
def shift (remainder : UInt32) : UInt32 :=
  if remainder &&& 0x80000000 = 0 then remainder <<< 1 else (remainder <<< 1) ^^^ 0x04c11db7

/-- The remainder after one more byte. -/
def feed (remainder : UInt32) (byte : UInt8) : UInt32 :=
  (List.range 8).foldl (fun r _ => shift r) (remainder ^^^ (byte.toUInt32 <<< 24))

/-- The bytes of a number, the lowest first, as many as it needs. -/
def lengthBytes : Nat → Nat → List UInt8
  | 0, _ | _, 0 => []
  | fuel + 1, n => UInt8.ofNat (n % 256) :: lengthBytes fuel (n / 256)

/-- The cyclic redundancy check of a message and its length. -/
def cyclic (message : List UInt8) : UInt32 :=
  ~~~((message ++ lengthBytes 8 message.length).foldl feed 0)

/-- The sum of bytes in which the sum so far is rotated by one bit each time. -/
def rotating (message : List UInt8) : Nat :=
  message.foldl (fun sum byte => (sum / 2 + sum % 2 * 32768 + byte.toNat) % 65536) 0

/-- The sum of bytes, folded to 16 bits. -/
def plain (message : List UInt8) : Nat :=
  let sum := message.foldl (fun sum byte => (sum + byte.toNat) % 4294967296) 0
  let folded := sum % 65536 + sum / 65536
  folded % 65536 + folded / 65536

end PlanOrbits.Checksum

/-!
## SHA-1

The older hash function of the Secure Hash Standard, with 160-bit digests. It pads
like SHA-256; each block is expanded to 80 words, which are mixed in four stages of
twenty rounds into a state of five words.
-/

namespace PlanOrbits.Sha1

/-- The five words that are mixed. -/
structure State where
  a : UInt32
  b : UInt32
  c : UInt32
  d : UInt32
  e : UInt32
  deriving DecidableEq, Repr

/-- The state before the first block. -/
def State.initial : State :=
  { a := 0x67452301, b := 0xefcdab89, c := 0x98badcfe, d := 0x10325476, e := 0xc3d2e1f0 }

/-- Rotate a word to the left. -/
def rotate (x : UInt32) (n : UInt32) : UInt32 := (x <<< n) ||| (x >>> (32 - n))

/-- The combination of three words in a stage, and the constant of the stage. -/
def stage (n : Nat) (b c d : UInt32) : UInt32 × UInt32 :=
  if n < 20 then ((b &&& c) ||| (~~~b &&& d), 0x5a827999)
  else if n < 40 then (b ^^^ c ^^^ d, 0x6ed9eba1)
  else if n < 60 then ((b &&& c) ||| (b &&& d) ||| (c &&& d), 0x8f1bbcdc)
  else (b ^^^ c ^^^ d, 0xca62c1d6)

/-- Mix one word of the expanded message into the state. -/
def State.round (s : State) (n : Nat) (word : UInt32) : State :=
  let (mixed, constant) := stage n s.b s.c s.d
  { a := rotate s.a 5 + mixed + s.e + constant + word, b := s.a, c := rotate s.b 30, d := s.c
    e := s.d }

/-- The sum of two states, word by word. -/
def State.add (s t : State) : State :=
  { a := s.a + t.a, b := s.b + t.b, c := s.c + t.c, d := s.d + t.d, e := s.e + t.e }

/-- Append so many words to the expanded message. -/
def expand (words : Array UInt32) : Nat → Array UInt32
  | 0 => words
  | n + 1 =>
      let back (k : Nat) : UInt32 := words.getD (words.size - k) 0
      expand (words.push (rotate (back 3 ^^^ back 8 ^^^ back 14 ^^^ back 16) 1)) n

/-- Mix one block of 64 bytes into the state. -/
def State.block (s : State) (bytes : List UInt8) : State :=
  let words := (expand (Sha256.wordsOf bytes).toArray 64).toList
  s.add (((List.range 80).zip words).foldl (fun t (n, word) => t.round n word) s)

/-- Mix so many blocks into the state. -/
def State.blocks (s : State) : Nat → List UInt8 → State
  | 0, _ => s
  | n + 1, bytes => (s.block (bytes.take 64)).blocks n (bytes.drop 64)

/-- The digest of a message, 20 bytes. -/
def digest (message : List UInt8) : List UInt8 :=
  let padded := Sha256.pad message
  let s := State.initial.blocks (padded.length / 64) padded
  [s.a, s.b, s.c, s.d, s.e].flatMap fun w => Sha256.bigEndian 4 w.toNat

end PlanOrbits.Sha1

/-!
## MD5

A hash function with 128-bit digests, whose words have the lowest byte first. Each
block of 64 bytes is mixed in four stages of sixteen rounds into a state of four
words; a stage takes the words of the block in an order of its own.
-/

namespace PlanOrbits.Md5

/-- The round constants: the sines of the first 64 natural numbers. -/
def roundConstants : List UInt32 :=
  [
    0xd76aa478, 0xe8c7b756, 0x242070db, 0xc1bdceee, 0xf57c0faf, 0x4787c62a, 0xa8304613,
    0xfd469501, 0x698098d8, 0x8b44f7af, 0xffff5bb1, 0x895cd7be, 0x6b901122, 0xfd987193,
    0xa679438e, 0x49b40821, 0xf61e2562, 0xc040b340, 0x265e5a51, 0xe9b6c7aa, 0xd62f105d,
    0x02441453, 0xd8a1e681, 0xe7d3fbc8, 0x21e1cde6, 0xc33707d6, 0xf4d50d87, 0x455a14ed,
    0xa9e3e905, 0xfcefa3f8, 0x676f02d9, 0x8d2a4c8a, 0xfffa3942, 0x8771f681, 0x6d9d6122,
    0xfde5380c, 0xa4beea44, 0x4bdecfa9, 0xf6bb4b60, 0xbebfbc70, 0x289b7ec6, 0xeaa127fa,
    0xd4ef3085, 0x04881d05, 0xd9d4d039, 0xe6db99e5, 0x1fa27cf8, 0xc4ac5665, 0xf4292244,
    0x432aff97, 0xab9423a7, 0xfc93a039, 0x655b59c3, 0x8f0ccc92, 0xffeff47d, 0x85845dd1,
    0x6fa87e4f, 0xfe2ce6e0, 0xa3014314, 0x4e0811a1, 0xf7537e82, 0xbd3af235, 0x2ad7d2bb,
    0xeb86d391
  ]

/-- By how many bits the rounds of the stages rotate. -/
def rotations : List (List UInt32) :=
  [[7, 12, 17, 22], [5, 9, 14, 20], [4, 11, 16, 23], [6, 10, 15, 21]]

/-- The four words that are mixed. -/
structure State where
  a : UInt32
  b : UInt32
  c : UInt32
  d : UInt32
  deriving DecidableEq, Repr

/-- The state before the first block. -/
def State.initial : State :=
  { a := 0x67452301, b := 0xefcdab89, c := 0x98badcfe, d := 0x10325476 }

/-- The combination of three words in a round, and the place of the word of the block
that goes with it. -/
def stage (n : Nat) (b c d : UInt32) : UInt32 × Nat :=
  match n / 16 with
  | 0 => ((b &&& c) ||| (~~~b &&& d), n)
  | 1 => ((d &&& b) ||| (~~~d &&& c), (5 * n + 1) % 16)
  | 2 => (b ^^^ c ^^^ d, (3 * n + 5) % 16)
  | _ => (c ^^^ (b ||| ~~~d), (7 * n) % 16)

/-- Mix a word of the block into the state. -/
def State.round (words : Array UInt32) (s : State) (n : Nat) (constant : UInt32) : State :=
  let (mixed, place) := stage n s.b s.c s.d
  let amount := (rotations.getD (n / 16) []).getD (n % 4) 0
  let sum := s.a + mixed + constant + words.getD place 0
  { a := s.d, b := s.b + Sha1.rotate sum amount, c := s.b, d := s.c }

/-- The words of bytes, four bytes each, the lowest byte first. -/
def wordsOf : Nat → List UInt8 → List UInt32
  | 0, _ => []
  | n + 1, bytes => (Bytes.value (bytes.take 4)).toUInt32 :: wordsOf n (bytes.drop 4)

/-- Mix one block of 64 bytes into the state. -/
def State.block (s : State) (bytes : List UInt8) : State :=
  let words := (wordsOf 16 bytes).toArray
  let t := ((List.range 64).zip roundConstants).foldl (fun t (n, k) => t.round words n k) s
  { a := s.a + t.a, b := s.b + t.b, c := s.c + t.c, d := s.d + t.d }

/-- The message with a one bit, zeros up to the last eight bytes of a block, and its
length in bits, the lowest byte first. -/
def pad (message : List UInt8) : List UInt8 :=
  let zeros := (64 - (message.length + 9) % 64) % 64
  message ++ 0x80 :: (List.replicate zeros 0 ++ Bytes.word 8 (8 * message.length))

/-- Mix so many blocks into the state. -/
def State.blocks (s : State) : Nat → List UInt8 → State
  | 0, _ => s
  | n + 1, bytes => (s.block (bytes.take 64)).blocks n (bytes.drop 64)

/-- The digest of a message, 16 bytes. -/
def digest (message : List UInt8) : List UInt8 :=
  let padded := pad message
  let s := State.initial.blocks (padded.length / 64) padded
  [s.a, s.b, s.c, s.d].flatMap fun w => Bytes.word 4 w.toNat

end PlanOrbits.Md5

/-!
## BLAKE2b

A hash function with digests of 64 bytes. Each block of 128 bytes is mixed in twelve
rounds into sixteen words, which begin with the state, the constants of SHA-512, and
the number of bytes so far.
-/

namespace PlanOrbits.Blake2

/-- The orders in which the rounds take the words of a block. -/
def orders : List (List Nat) :=
  [[0, 1, 2, 3, 4, 5, 6, 7, 8, 9, 10, 11, 12, 13, 14, 15],
    [14, 10, 4, 8, 9, 15, 13, 6, 1, 12, 0, 2, 11, 7, 5, 3],
    [11, 8, 12, 0, 5, 2, 15, 13, 10, 14, 3, 6, 7, 1, 9, 4],
    [7, 9, 3, 1, 13, 12, 11, 14, 2, 6, 5, 10, 4, 0, 15, 8],
    [9, 0, 5, 7, 2, 4, 10, 15, 14, 1, 11, 12, 6, 8, 3, 13],
    [2, 12, 6, 10, 0, 11, 8, 3, 4, 13, 7, 5, 15, 14, 1, 9],
    [12, 5, 1, 15, 14, 13, 4, 10, 0, 7, 6, 3, 9, 2, 8, 11],
    [13, 11, 7, 14, 12, 1, 3, 9, 5, 0, 15, 4, 8, 6, 2, 10],
    [6, 15, 14, 9, 11, 3, 0, 8, 12, 2, 13, 7, 1, 4, 10, 5],
    [10, 2, 8, 4, 7, 6, 1, 5, 15, 11, 9, 14, 3, 12, 13, 0]]

/-- The places of the words that are mixed with each other: columns, then
diagonals. -/
def quarters : List (Nat × Nat × Nat × Nat) :=
  [(0, 4, 8, 12), (1, 5, 9, 13), (2, 6, 10, 14), (3, 7, 11, 15),
    (0, 5, 10, 15), (1, 6, 11, 12), (2, 7, 8, 13), (3, 4, 9, 14)]

/-- Mix four words with two words of the block. -/
def mix (v : Array UInt64) (place : Nat × Nat × Nat × Nat) (x y : UInt64) : Array UInt64 :=
  let (i, j, k, l) := place
  let a := v.getD i 0 + v.getD j 0 + x
  let d := Sha512.rotate (v.getD l 0 ^^^ a) 32
  let c := v.getD k 0 + d
  let b := Sha512.rotate (v.getD j 0 ^^^ c) 24
  let a := a + b + y
  let d := Sha512.rotate (d ^^^ a) 16
  let c := c + d
  let b := Sha512.rotate (b ^^^ c) 63
  (((v.setIfInBounds i a).setIfInBounds j b).setIfInBounds k c).setIfInBounds l d

/-- One round, which takes the words of the block in the given order. -/
def round (words : Array UInt64) (v : Array UInt64) (order : List Nat) : Array UInt64 :=
  ((List.range 8).zip quarters).foldl (fun v (n, place) =>
    let word := fun m => words.getD (order.getD m 0) 0
    mix v place (word (2 * n)) (word (2 * n + 1))) v

/-- The words of bytes, eight bytes each, the lowest byte first. -/
def wordsOf : Nat → List UInt8 → List UInt64
  | 0, _ => []
  | n + 1, bytes => (Bytes.value (bytes.take 8)).toUInt64 :: wordsOf n (bytes.drop 8)

/-- The state after a block, where `count` bytes of the message are in it or before
it. -/
def block (state : List UInt64) (bytes : List UInt8) (count : Nat) (isLast : Bool) :
    List UInt64 :=
  let words := (wordsOf 16 (bytes ++ List.replicate (128 - bytes.length) 0)).toArray
  let start := (state ++ Sha512.initialWords).toArray
  let start := start.modify 12 (· ^^^ count.toUInt64)
  let start := if isLast then start.modify 14 (~~~ ·) else start
  let mixed := ((orders ++ orders.take 2).foldl (round words) start).toList
  (state.zip ((mixed.take 8).zip (mixed.drop 8))).map fun (h, x, y) => h ^^^ x ^^^ y

/-- The state after so many blocks. -/
def blocks : Nat → List UInt64 → (before : Nat) → List UInt8 → List UInt64
  | 0, state, _, _ => state
  | n + 1, state, before, bytes =>
      let here := bytes.take 128
      blocks n (block state here (before + here.length) (n == 0)) (before + here.length)
        (bytes.drop 128)

/-- The digest of a message, with so many bytes, up to 64. -/
def digest (length : Nat) (message : List UInt8) : List UInt8 :=
  let parameters := 0x01010000 ^^^ length.toUInt64
  let start := Sha512.initialWords.mapIdx fun n w => if n = 0 then w ^^^ parameters else w
  let words := blocks (max 1 ((message.length + 127) / 128)) start 0 message
  (words.flatMap fun w => Bytes.word 8 w.toNat).take length

end PlanOrbits.Blake2
