import PlanOrbits.Shell.Format

/-!
# Values of record programs

A value is a number or a text, and each can be had from the other. A text from the
input counts as a number where it looks like one.
-/

namespace PlanOrbits.Shell.Records

/-- A value. -/
inductive Value where
  /-- The value of a variable that has none: an empty text, or zero. -/
  | unset
  | number (x : Float)
  | text (cs : List Char)
  /-- A long text to whose end more may be added; its last character comes first. -/
  | growing (cs : List Char)
  /-- A text from the input. -/
  | input (cs : List Char)
  deriving Repr

/-- The number at the front of a text; zero if there is none. -/
def realOf (cs : List Char) : Float := (Front.signed cs).1

/-- Is a text a number, with blanks around it? -/
def looksNumeric (cs : List Char) : Bool :=
  let trimmed := Text.trim cs
  let digits := trimmed.dropWhile fun c => c == '-' || c == '+'
  let isStart := digits.head?.any fun c => Text.isDigit c || c == '.'
  isStart && trimmed.length ≤ digits.length + 1 &&
    digits.any Text.isDigit && (Front.signed trimmed).2.isEmpty

/-- The least integer that is written as one. -/
def leastInteger : Float := -9223372036854775808.0

/-- The number up to which integers are written as such. -/
def greatestInteger : Float := 18446744073709551616.0

/-- Is a number whole, and small enough to be written as an integer? -/
def isWhole (x : Float) : Bool := x.floor == x && leastInteger ≤ x && x ≤ greatestInteger

/-- What is no number. -/
def noNumber : Float := 0.0 / 0.0

/-- The text of an integer, which is a word. -/
def wholeText (x : Float) : List Char :=
  Arithmetic.textOf (min (Rounded.truncated x) ((Text.wordLimit : Nat) - 1))

/-- A text with a number in it, by a format. -/
def formatReal (format : List Char) (x : Float) : List Char :=
  let a := Argument.ofReal [] [] x
  let (parts, _) := formatParts .none (format.length + 1) format
  (useFormat a parts [a]).output

/-- The text of a number: an integer in full, any other by a format. -/
def realText (format : List Char) (x : Float) : List Char :=
  if isWhole x then wholeText x
  else if x.isNaN then "-nan".toList
  else formatReal format x

namespace Value

/-- The value as a number. -/
def toReal : Value → Float
  | unset => 0
  | number x => x
  | text cs | input cs => realOf cs
  | growing cs => realOf cs.reverse

/-- The value as a text, by a format for numbers. -/
def toText (format : List Char) : Value → List Char
  | unset => []
  | number x => realText format x
  | text cs | input cs => cs
  | growing cs => cs.reverse

/-- So many characters make a text long. -/
def longSize : Nat := 1000

/-- The text of a value with more behind it. -/
def append (format : List Char) (v : Value) (more : List Char) : Value :=
  match v with
  | growing cs => growing (more.reverseAux cs)
  | v =>
      let cs := v.toText format
      if (cs.drop longSize).isEmpty then text (cs ++ more) else growing (more.reverseAux cs.reverse)

/-- Is the value true? -/
def isTrue : Value → Bool
  | unset => false
  | number x => x != 0
  | text cs | growing cs => !cs.isEmpty
  | input cs => if looksNumeric cs then realOf cs != 0 else !cs.isEmpty

/-- Does the value count as a number in a comparison? -/
def isNumeric : Value → Bool
  | unset | number _ => true
  | text _ | growing _ => false
  | input cs => looksNumeric cs

/-- One for what holds, zero for what does not. -/
def ofBool (b : Bool) : Value := number (if b then 1 else 0)

/-- A value for a count. -/
def ofNat (n : Nat) : Value := number n.toFloat

/-- Compare two values: as numbers, if both count as numbers. -/
def compare (format : List Char) (a b : Value) : Ordering :=
  if a.isNumeric && b.isNumeric then
    let x := a.toReal
    let y := b.toReal
    if x < y then .lt else if x == y then .eq else .gt
  else Ord.compare (a.toText format) (b.toText format)

/-- The value as an argument of a format. -/
def argument (format : List Char) (v : Value) : Argument :=
  let x := v.toReal
  let text := v.toText format
  let char :=
    match v with
    | number x => [charOfCode (Rounded.truncated x).toNat]
    | _ => text.take 1
  Argument.ofReal text char x

end Value

/-- The result of an operator on numbers. -/
def calculate (operator : Char) (x y : Float) : Float :=
  match operator with
  | '+' => x + y
  | '-' => x - y
  | '*' => x * y
  | '/' => x / y
  | '^' => x.pow y
  | _ =>
      if y == 0 || x.isNaN || y.isNaN || x.isInf then noNumber
      else if y.isInf then x
      else if x < 0 then -(Rounded.remainder x y) else Rounded.remainder x y

end PlanOrbits.Shell.Records
