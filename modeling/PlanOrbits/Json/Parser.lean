import PlanOrbits.Json.Basic

/-!
# Reading JSON text

A strict reader: one value, blanks around it, nothing else. Every function takes
the characters that are left and returns what it found with the characters
behind it, or `none` if the text is not well formed there. The blanks of the
format are four, fewer than those of running text.
-/

namespace PlanOrbits.Json

/-- The blanks between tokens. -/
def isSpace (c : Char) : Bool := c == ' ' || c == '\t' || c == '\n' || c == '\r'

/-- Drop the blanks before the next token. -/
def skipSpace (cs : List Char) : List Char := cs.dropWhile isSpace

/-! ## Numbers -/

/-- At least one digit, and what follows the digits. -/
def readDigits? (cs : List Char) : Option (List Nat × List Char) :=
  let (digits, rest) := cs.span Text.isDigit
  match digits.filterMap Text.digit? with
  | [] => none
  | ds => some (ds, rest)

/-- An optional fraction: a point and digits. -/
def readFraction? : List Char → Option (List Nat × List Char)
  | '.' :: cs => readDigits? cs
  | cs => some ([], cs)

/-- An optional exponent: `e` or `E`, an optional sign, digits. -/
def readExponent? : List Char → Option (Option (Bool × List Nat) × List Char)
  | [] => some (none, [])
  | c :: cs =>
      if c = 'e' ∨ c = 'E' then
        let (negative, rest) :=
          match cs with
          | '-' :: rest => (true, rest)
          | '+' :: rest => (false, rest)
          | _ => (false, cs)
        (readDigits? rest).map fun (digits, rest) => (some (negative, digits), rest)
      else some (none, c :: cs)

/-- A number. The whole part has no leading zero. -/
def readNumber? (cs : List Char) : Option (Numeral × List Char) := do
  let (negative, rest) :=
    match cs with
    | '-' :: rest => (true, rest)
    | _ => (false, cs)
  let (whole, rest) ← readDigits? rest
  if whole.head? = some 0 ∧ whole.length ≠ 1 then none
  else
    let (fraction, rest) ← readFraction? rest
    let (exponent, rest) ← readExponent? rest
    some ({ negative, whole, fraction, exponent }, rest)

/-! ## Strings -/

/-- The characters of the two-character escapes. -/
def simpleEscape? : Char → Option Char
  | '"' => some '"'
  | '\\' => some '\\'
  | '/' => some '/'
  | 'b' => some '\x08'
  | 'f' => some '\x0c'
  | 'n' => some '\n'
  | 'r' => some '\r'
  | 't' => some '\t'
  | _ => none

/-- The code points of a string up to its closing quote. An escape gives one
16-bit unit, which may be half of a surrogate pair. -/
def readUnits? : List Char → Option (List Nat × List Char)
  | [] => none
  | '"' :: rest => some ([], rest)
  | '\\' :: 'u' :: a :: b :: c :: d :: rest => do
      let unit := ((← Text.hexDigit? a) * 16 + (← Text.hexDigit? b)) * 256 +
        ((← Text.hexDigit? c) * 16 + (← Text.hexDigit? d))
      let (units, rest) ← readUnits? rest
      some (unit :: units, rest)
  | '\\' :: c :: rest => do
      let plain ← simpleEscape? c
      let (units, rest) ← readUnits? rest
      some (plain.toNat :: units, rest)
  | c :: rest =>
      if c.toNat < 0x20 ∨ c = '\\' then none
      else (readUnits? rest).map fun (units, rest) => (c.toNat :: units, rest)

/-- Join surrogate pairs. A half without its partner denotes no text. -/
def joinUnits? : List Nat → Option (List Char)
  | [] => some []
  | high :: low :: rest =>
      if 0xD800 ≤ high ∧ high < 0xDC00 then
        if 0xDC00 ≤ low ∧ low < 0xE000 then
          (joinUnits? rest).map
            (Char.ofNat (0x10000 + (high - 0xD800) * 0x400 + (low - 0xDC00)) :: ·)
        else none
      else if 0xDC00 ≤ high ∧ high < 0xE000 then none
      else (joinUnits? (low :: rest)).map (Char.ofNat high :: ·)
  | [unit] => if 0xD800 ≤ unit ∧ unit < 0xE000 then none else some [Char.ofNat unit]

/-- A string behind its opening quote. -/
def readString? (cs : List Char) : Option (Option String × List Char) :=
  (readUnits? cs).map fun (units, rest) => ((joinUnits? units).map String.ofList, rest)

/-! ## Values -/

/-- The value `value`, if the text goes on with `word`. -/
def readWord? (word : List Char) (value : Json) (cs : List Char) : Option (Json × List Char) :=
  if word.isPrefixOf cs then some (value, cs.drop word.length) else none

mutual

/-- One value, blanks before it included. -/
def readValue? : (fuel : Nat) → List Char → Option (Json × List Char)
  | 0, _ => none
  | fuel + 1, cs =>
      match skipSpace cs with
      | '"' :: rest => (readString? rest).map fun (text, rest) => (string text, rest)
      | '[' :: rest =>
          match skipSpace rest with
          | ']' :: rest => some (array [], rest)
          | _ => (readItems? fuel rest).map fun (items, rest) => (array items, rest)
      | '\x7b' :: rest =>
          match skipSpace rest with
          | '\x7d' :: rest => some (object [], rest)
          | _ => (readFields? fuel rest).map fun (fields, rest) => (object fields, rest)
      | 't' :: rest => readWord? ['r', 'u', 'e'] (bool true) rest
      | 'f' :: rest => readWord? ['a', 'l', 's', 'e'] (bool false) rest
      | 'n' :: rest => readWord? ['u', 'l', 'l'] null rest
      | cs => (readNumber? cs).map fun (numeral, rest) => (number numeral, rest)

/-- The items of an array up to its closing bracket; there is at least one. -/
def readItems? : (fuel : Nat) → List Char → Option (List Json × List Char)
  | 0, _ => none
  | fuel + 1, cs => do
      let (item, rest) ← readValue? fuel cs
      match skipSpace rest with
      | ']' :: rest => some ([item], rest)
      | ',' :: rest => (readItems? fuel rest).map fun (items, rest) => (item :: items, rest)
      | _ => none

/-- The fields of an object up to its closing brace; there is at least one. -/
def readFields? : (fuel : Nat) → List Char →
    Option (List (Option String × Json) × List Char)
  | 0, _ => none
  | fuel + 1, cs =>
      match skipSpace cs with
      | '"' :: rest => do
          let (name, rest) ← readString? rest
          match skipSpace rest with
          | ':' :: rest =>
              let (value, rest) ← readValue? fuel rest
              match skipSpace rest with
              | '\x7d' :: rest => some ([(name, value)], rest)
              | ',' :: rest =>
                  (readFields? fuel rest).map fun (fields, rest) => ((name, value) :: fields, rest)
              | _ => none
          | _ => none
      | _ => none

end

/-- The document that a whole text spells. Between two characters that are read
at most two calls are nested, which bounds the fuel. -/
def parse? (text : String) : Option Json :=
  let cs := text.toList
  match readValue? (2 * cs.length + 2) cs with
  | some (value, rest) => if (skipSpace rest).isEmpty then some value else none
  | none => none

end PlanOrbits.Json
