import PlanOrbits.Json.Basic

/-!
# Writing JSON text

Two layouts of the same tokens: `render` writes no blanks at all, `pretty`
indents by two blanks and puts every item and field on a line of its own. Only
quotes, backslashes and control characters are escaped. A string that denotes no
text is written as one unpaired surrogate, which is read back as such.
-/

namespace PlanOrbits.Json

/-- A lower-case hexadecimal digit. -/
def hexChar (n : Nat) : Char := (Nat.digitChar n)

/-- A character inside a string. -/
def escapeChar (c : Char) : List Char :=
  if c = '"' then ['\\', '"']
  else if c = '\\' then ['\\', '\\']
  else if c = '\x08' then ['\\', 'b']
  else if c = '\x0c' then ['\\', 'f']
  else if c = '\n' then ['\\', 'n']
  else if c = '\r' then ['\\', 'r']
  else if c = '\t' then ['\\', 't']
  else if c.toNat < 0x20 then
    ['\\', 'u', '0', '0', hexChar (c.toNat / 16), hexChar (c.toNat % 16)]
  else [c]

/-- A string with its quotes. -/
def writeString : Option String → List Char
  | some text => '"' :: (text.toList.flatMap escapeChar ++ ['"'])
  | none => ['"', '\\', 'u', 'd', '8', '0', '0', '"']

/-- The characters of a list of digits. -/
def writeDigits (digits : List Nat) : List Char := digits.map Nat.digitChar

/-- A number. An exponent always has a sign. -/
def writeNumber (n : Numeral) : List Char :=
  (if n.negative then ['-'] else []) ++ writeDigits n.whole ++
    (if n.fraction.isEmpty then [] else '.' :: writeDigits n.fraction) ++
    match n.exponent with
    | none => []
    | some (negative, digits) => 'e' :: (if negative then '-' else '+') :: writeDigits digits

/-- A value without parts. -/
def writeAtom : Json → List Char
  | null => ['n', 'u', 'l', 'l']
  | bool true => ['t', 'r', 'u', 'e']
  | bool false => ['f', 'a', 'l', 's', 'e']
  | number n => writeNumber n
  | string text => writeString text
  | array _ => ['[', ']']
  | object _ => ['\x7b', '\x7d']

mutual

/-- A value without blanks. -/
def write : Json → List Char
  | array (item :: items) => '[' :: (write item ++ writeItems items)
  | object ((name, value) :: fields) =>
      '\x7b' :: (writeString name ++ ':' :: (write value ++ writeFields fields))
  | atom => writeAtom atom

/-- The items behind the first one, and the closing bracket. -/
def writeItems : List Json → List Char
  | [] => [']']
  | item :: items => ',' :: (write item ++ writeItems items)

/-- The fields behind the first one, and the closing brace. -/
def writeFields : List (Option String × Json) → List Char
  | [] => ['\x7d']
  | (name, value) :: fields =>
      ',' :: (writeString name ++ ':' :: (write value ++ writeFields fields))

end

/-- A new line, indented for the given level. -/
def newLine (level : Nat) : List Char := '\n' :: List.replicate (2 * level) ' '

mutual

/-- A value whose parts are indented one level deeper than `level`. -/
def writePretty (level : Nat) : Json → List Char
  | array (item :: items) =>
      '[' :: (newLine (level + 1) ++ (writePretty (level + 1) item ++
        writePrettyItems level items))
  | object ((name, value) :: fields) =>
      '\x7b' :: (newLine (level + 1) ++ (writeString name ++ ':' :: ' ' ::
        (writePretty (level + 1) value ++ writePrettyFields level fields)))
  | atom => writeAtom atom

/-- The items behind the first one, and the closing bracket. -/
def writePrettyItems (level : Nat) : List Json → List Char
  | [] => newLine level ++ [']']
  | item :: items =>
      ',' :: (newLine (level + 1) ++ (writePretty (level + 1) item ++
        writePrettyItems level items))

/-- The fields behind the first one, and the closing brace. -/
def writePrettyFields (level : Nat) : List (Option String × Json) → List Char
  | [] => newLine level ++ ['\x7d']
  | (name, value) :: fields =>
      ',' :: (newLine (level + 1) ++ (writeString name ++ ':' :: ' ' ::
        (writePretty (level + 1) value ++ writePrettyFields level fields)))

end

/-- The text of a document without blanks. -/
def render (value : Json) : String := String.ofList (write value)

/-- The text of a document, indented. -/
def pretty (value : Json) : String := String.ofList (writePretty 0 value)

end PlanOrbits.Json
