import PlanOrbits.Bytes.LittleEndian
import PlanOrbits.Shell.Number.Front
import PlanOrbits.Shell.Number.Rounded
import PlanOrbits.Shell.Amount
import PlanOrbits.Shell.Flags
import PlanOrbits.Shell.Line

/-!
# Dumps

Bytes shown as numbers, as characters or by names. A dump has a line for each block
of bytes, with the address of the block in front; the block may be shown in several
forms below each other, whose items are then spread so that they stand below each
other, too. Blocks that repeat the one before them are left out.
-/

namespace PlanOrbits.Shell.Dump

/-! ## Items -/

/-- What an item is shown as. -/
inductive Display where
  /-- A character, or the name of a control character. -/
  | name
  /-- A character, or an escape. -/
  | char
  | signed
  | unsigned
  | octal
  | hexadecimal
  | float
  deriving DecidableEq, Repr

/-- The names of the control characters and of the blank, in the order of their
codes. -/
def controlNames : List String :=
  ["nul", "soh", "stx", "etx", "eot", "enq", "ack", "bel", "bs", "ht", "nl", "vt", "ff", "cr",
    "so", "si", "dle", "dc1", "dc2", "dc3", "dc4", "nak", "syn", "etb", "can", "em", "sub", "esc",
    "fs", "gs", "rs", "us", "sp"]

/-- Is a byte a character that can be printed? -/
def isPrintable (b : UInt8) : Bool := 32 ≤ b.toNat && b.toNat < 127

/-- A byte by its name. The highest bit does not count. -/
def nameText (b : UInt8) : List Char :=
  let n := b.toNat % 128
  if n = 127 then "del".toList
  else
    match controlNames[n]? with
    | some name => name.toList
    | none => [Char.ofNat n]

/-- The digits of a number, filled up with zeros. -/
def digitsText (base width n : Nat) : List Char :=
  let digits := Nat.toDigits base n
  List.replicate (width - digits.length) '0' ++ digits

/-- A byte as a character. -/
def charText (b : UInt8) : List Char :=
  match b.toNat with
  | 0 => ['\\', '0']
  | 7 => ['\\', 'a']
  | 8 => ['\\', 'b']
  | 9 => ['\\', 't']
  | 10 => ['\\', 'n']
  | 11 => ['\\', 'v']
  | 12 => ['\\', 'f']
  | 13 => ['\\', 'r']
  | n => if isPrintable b then [Char.ofNat n] else digitsText 8 3 n

/-- The text of a magnitude that is read back as the same one, with no fewer than
`precision` digits and as few as possible up to `tries` more. -/
def magnitudeText (isSame : Float → Bool) (x : Float) (precision : Nat) : (tries : Nat) → List Char
  | 0 => Rounded.generalText precision false x
  | n + 1 =>
      let text := Rounded.generalText precision false x
      if isSame (Front.decimal text).1 then text else magnitudeText isSame x (precision + 1) n

/-- The text of a floating-point number, by the way its magnitude is written. -/
def floatText (magnitude : Float → List Char) (x : Float) : List Char :=
  let sign := if Nat.pow 2 63 ≤ x.toBits.toNat then ['-'] else []
  sign ++
    if x.isNaN then "nan".toList
    else if x.isInf then "inf".toList
    else magnitude x.abs

/-- The text of the floating-point number in four or eight bytes. -/
def floatOfBytes (item : List UInt8) : List Char :=
  if item.length ≤ 4 then
    let isSame := fun (x y : Float) => x.toFloat32.toBits == y.toFloat32.toBits
    let x := (Float32.ofBits (Bytes.value item).toUInt32).toFloat
    floatText (fun x => magnitudeText (isSame x) x 6 3) x
  else
    let x := Float.ofBits (Bytes.value item).toUInt64
    floatText (fun x => magnitudeText (·.toBits == x.toBits) x 15 2) x

/-! ## Forms -/

/-- A form in which blocks are shown. -/
structure Form where
  display : Display
  /-- The bytes of an item. -/
  size : Nat
  /-- Are the characters of the block shown behind it? -/
  isTrailed : Bool
  deriving DecidableEq, Repr

namespace Form

variable (f : Form)

/-- How many columns an item takes. -/
def width : Nat :=
  match f.display with
  | .name | .char => 3
  | .octal => (8 * f.size + 2) / 3
  | .hexadecimal => 2 * f.size
  | .unsigned => (Text.decimal (Nat.pow 256 f.size - 1)).length
  | .signed => (Text.decimal (Nat.pow 256 f.size / 2)).length + 1
  | .float => if f.size = 4 then 15 else 24

/-- The text of an item. -/
def itemText (item : List UInt8) : List Char :=
  let n := Bytes.value item
  match f.display with
  | .name => item.flatMap nameText
  | .char => item.flatMap charText
  | .octal => digitsText 8 f.width n
  | .hexadecimal => digitsText 16 f.width n
  | .unsigned => Text.decimal n
  | .signed =>
      let limit := Nat.pow 256 f.size
      if 2 * n < limit then Text.decimal n else '-' :: Text.decimal (limit - n)
  | .float => floatOfBytes item

/-- Items of the size of the form; what is missing in the last one is zero. -/
def items : Nat → List UInt8 → List (List UInt8)
  | 0, _ | _, [] => []
  | fuel + 1, bytes =>
      let item := bytes.take f.size
      (item ++ List.replicate (f.size - item.length) 0) :: items fuel (bytes.drop f.size)

/-- A block of so many bytes, when it is full, as a line of the form. `width` is the
width of the widest form. -/
def line (size width : Nat) (block : List UInt8) : List Char :=
  let count := size / f.size
  let spread := width - f.width * count
  let items := f.items (block.length + 1) block
  -- The blanks between items, spread evenly over all of them.
  let blanks := fun (n : Nat) => spread * (count - n) / count - spread * (count - n - 1) / count
  let shown := ((List.range items.length).zip items).flatMap fun (n, item) =>
    Line.padLeft (blanks n + f.width) (f.itemText item)
  if f.isTrailed then
    let missing := count - items.length
    shown ++ List.replicate (missing * f.width + spread * missing / count) ' ' ++ "  >".toList ++
      block.map (fun b => if isPrintable b then Char.ofNat b.toNat else '.') ++ ['<']
  else shown

/-! ### Reading forms -/

/-- The letters for the sizes of numbers. -/
def sizeLetters : List (Char × Nat) := [('C', 1), ('S', 2), ('I', 4), ('L', 8)]

/-- The size at the front of a text, and what is behind it. -/
def readSize? (isFloat : Bool) (cs : List Char) : Option (Nat × List Char) :=
  let digits := cs.takeWhile Text.isDigit
  if digits.isEmpty then
    match cs with
    | [] => some (if isFloat then 8 else 4, [])
    | c :: rest =>
        if isFloat then
          match c with
          | 'F' => some (4, rest)
          | 'D' => some (8, rest)
          | _ => some (8, cs)
        else
          match sizeLetters.lookup c with
          | some size => some (size, rest)
          | none => some (4, cs)
  else
    let size := Text.number (digits.filterMap Text.digit?)
    let sizes := if isFloat then [4, 8] else [1, 2, 4, 8]
    if sizes.contains size then some (size, cs.drop digits.length) else none

/-- The display for a letter. -/
def display? : Char → Option Display
  | 'a' => some .name
  | 'c' => some .char
  | 'd' => some .signed
  | 'u' => some .unsigned
  | 'o' => some .octal
  | 'x' => some .hexadecimal
  | 'f' => some .float
  | _ => none

/-- The forms that a text describes, one behind the other. -/
def readAll? : Nat → List Char → Option (List Form)
  | 0, _ => none
  | _, [] => some []
  | fuel + 1, c :: cs => do
      let display ← display? c
      let (size, rest) ←
        if display = .name ∨ display = .char then some (1, cs) else readSize? (display = .float) cs
      let isTrailed := rest.head? == some 'z'
      let forms ← readAll? fuel (if isTrailed then rest.drop 1 else rest)
      return { display, size, isTrailed } :: forms

/-- The form for a letter of its own. -/
def ofLetter? : Char → Option Form
  | 'a' => some { display := .name, size := 1, isTrailed := false }
  | 'b' => some { display := .octal, size := 1, isTrailed := false }
  | 'c' => some { display := .char, size := 1, isTrailed := false }
  | 'd' => some { display := .unsigned, size := 2, isTrailed := false }
  | 'e' | 'F' => some { display := .float, size := 8, isTrailed := false }
  | 'f' => some { display := .float, size := 4, isTrailed := false }
  | 'h' | 'x' => some { display := .hexadecimal, size := 2, isTrailed := false }
  | 'H' | 'X' => some { display := .hexadecimal, size := 4, isTrailed := false }
  | 'i' | 'D' => some { display := .signed, size := 4, isTrailed := false }
  | 'I' | 'L' | 'l' => some { display := .signed, size := 8, isTrailed := false }
  | 'o' | 'B' => some { display := .octal, size := 2, isTrailed := false }
  | 'O' => some { display := .octal, size := 4, isTrailed := false }
  | 's' => some { display := .signed, size := 2, isTrailed := false }
  | _ => none

end Form

/-! ## Dumps -/

/-- How bytes are dumped. -/
structure Layout where
  forms : List Form
  /-- The base of addresses, if they are shown. -/
  addressBase : Option Nat
  /-- The bytes of a block. -/
  blockSize : Nat
  /-- Are blocks that repeat the one before them shown? -/
  isVerbose : Bool

namespace Layout

variable (l : Layout)

/-- The text of an address. -/
def address (n : Nat) : List Char :=
  match l.addressBase with
  | some base => digitsText base (if base = 16 then 6 else 7) n
  | none => []

/-- The width of the widest form. -/
def width : Nat :=
  l.forms.foldl (fun width f => max width ((f.width + 1) * (l.blockSize / f.size))) 0

/-- The lines of a block at an address. -/
def blockText (start : Nat) (block : List UInt8) : List Char :=
  let lines := l.forms.map (·.line l.blockSize l.width block)
  match lines with
  | [] => []
  | first :: rest =>
      let margin := List.replicate (l.address 0).length ' '
      Line.ended (l.address start ++ first) ++ rest.flatMap fun line => Line.ended (margin ++ line)

/-- The lines of all blocks. `before` is the block before them, and whether it was a
repetition. -/
def blocksText : Nat → (start : Nat) → (before : Option (List UInt8 × Bool)) → List UInt8 →
    List Char
  | 0, _, _, _ => []
  | _, start, _, [] => if l.addressBase.isSome then Line.ended (l.address start) else []
  | fuel + 1, start, before, bytes =>
      let block := bytes.take l.blockSize
      let isRepeated := !l.isVerbose && before.any (·.1 == block)
      let shown :=
        if isRepeated then (if before.any (·.2) then [] else ['*', '\n'])
        else l.blockText start block
      shown ++ blocksText fuel (start + block.length) (some (block, isRepeated))
        (bytes.drop l.blockSize)

/-- The dump of bytes whose first one has the given address. -/
def run (start : Nat) (bytes : List UInt8) : List Char :=
  l.blocksText (bytes.length + 2) start none bytes

end Layout

/-! ## Arguments -/

/-- The flags of the program that dumps. -/
def table : FlagTable where
  plain := "abcdefhiloxsvBDFHILOX"
  valued := "AjNt"
  optional := "w"
  long := [("address-radix", 'A'), ("skip-bytes", 'j'), ("read-bytes", 'N'), ("format", 't'),
    ("output-duplicates", 'v'), ("width", 'w')]
  isMixed := true

/-- What arguments ask for: the layout, how many bytes are left out and how many are
shown, and the files. -/
def ofArgs? (args : List (List Char)) :
    Option (Layout × Nat × Option Nat × List (List Char)) := do
  let f ← Flags.ofArgs? table args
  let forms ← f.given.mapM fun (c, value) =>
    if c == 't' then Form.readAll? (value.length + 1) value
    else some (Form.ofLetter? c).toList
  let forms := if forms.flatten.isEmpty then (Form.ofLetter? 'o').toList else forms.flatten
  let addressBase ←
    match f.value? 'A' with
    | none | some ['o'] => some (some 8)
    | some ['d'] => some (some 10)
    | some ['x'] => some (some 16)
    | some ['n'] => some none
    | some _ => none
  let skipped ← (f.value? 'j').elim (some 0) Amount.readAnyBase?
  let limit ← (f.value? 'N').elim (some none) fun cs => (Amount.readAnyBase? cs).map some
  let unit := forms.foldl (fun n (form : Form) => max n form.size) 1
  let blockSize ←
    match f.value? 'w' with
    | none => some 16
    | some [] => some 32
    | some cs => (Amount.readAnyBase? cs).map fun n => if n = 0 ∨ n % unit ≠ 0 then unit else n
  return ({ forms, addressBase, blockSize, isVerbose := f.has 'v' }, skipped, limit, f.operands)

end PlanOrbits.Shell.Dump
