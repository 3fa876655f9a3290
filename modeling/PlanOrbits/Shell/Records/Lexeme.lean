import PlanOrbits.Shell.Format
import PlanOrbits.Shell.Token

/-!
# Lexemes of record programs

A program as a list of names, numbers, texts, patterns and signs. A slash begins a
pattern, unless it stands behind an operand, which it then divides.
-/

namespace PlanOrbits.Shell.Records

/-- A part of a program. -/
inductive Lexeme where
  | number (x : Float)
  | text (cs : List Char)
  | pattern (cs : List Char)
  | name (cs : List Char)
  /-- A name right in front of a parenthesis. -/
  | called (cs : List Char)
  /-- A word with a meaning of its own. -/
  | word (text : String)
  | sign (text : String)
  | newline

namespace Lexeme

/-- The words that structure programs. -/
def keywords : List String :=
  ["BEGIN", "END", "function", "func", "if", "else", "while", "for", "do", "break", "continue",
    "next", "exit", "return", "delete", "in", "getline", "print", "printf"]

/-- The names of the functions that are always there. -/
def builtins : List String :=
  ["length", "substr", "index", "split", "sub", "gsub", "match", "sprintf", "sin", "cos", "atan2",
    "exp", "log", "sqrt", "int", "rand", "srand", "tolower", "toupper", "system", "close", "fflush"]

/-- The signs; a longer one comes before its beginnings. -/
def signs : List String :=
  ["&&", "||", "==", "<=", ">=", "!=", "++", "--", "+=", "-=", "*=", "/=", "%=", "^=",
    ">>", "!~", "\x7b", "\x7d", "(", ")", "[", "]", ";", ",", "+", "-", "*", "/", "%", "^", "!",
    ">", "<", "|", "?", ":", "~", "$", "="]

/-- Does a lexeme end an operand? -/
def endsOperand : Lexeme → Bool
  | number _ | text _ | pattern _ | name _ => true
  | sign s => s == ")" || s == "]" || s == "++" || s == "--" || s == "$"
  | word s => builtins.contains s
  | _ => false

/-- A text up to its closing quote, with its escapes resolved. -/
def readText? : Nat → List Char → Option (List Char × List Char)
  | 0, _ | _, [] => none
  | _, '"' :: rest => some ([], rest)
  | fuel + 1, '\\' :: '\n' :: rest => readText? fuel rest
  | fuel + 1, '\\' :: c :: rest =>
      -- An unknown escape keeps its backslash, and the character behind it.
      let (xs, behind) := readEscape true (c :: rest)
      (readText? fuel behind).map fun (cs, rest) => (xs ++ cs, rest)
  | fuel + 1, c :: rest => (readText? fuel rest).map fun (cs, rest) => (c :: cs, rest)

/-- A pattern up to the slash that closes it. Inside of brackets a slash is one of
the characters. -/
def readPattern? : Nat → (isInBrackets : Bool) → List Char → Option (List Char × List Char)
  | 0, _, _ | _, _, [] => none
  | _, false, '/' :: rest => some ([], rest)
  | fuel + 1, isInside, '\\' :: '/' :: rest =>
      (readPattern? fuel isInside rest).map fun (cs, rest) => ('/' :: cs, rest)
  | fuel + 1, isInside, '\\' :: c :: rest =>
      (readPattern? fuel isInside rest).map fun (cs, rest) => ('\\' :: c :: cs, rest)
  | fuel + 1, false, '[' :: '^' :: c :: rest =>
      (readPattern? fuel true rest).map fun (cs, rest) => ('[' :: '^' :: c :: cs, rest)
  | fuel + 1, false, '[' :: c :: rest =>
      if c == '[' then (readPattern? fuel true (c :: rest)).map fun (cs, rest) => ('[' :: cs, rest)
      else (readPattern? fuel true rest).map fun (cs, rest) => ('[' :: c :: cs, rest)
  | fuel + 1, true, '[' :: ':' :: rest => do
      let name := rest.takeWhile (· != ']')
      let (cs, rest) ← readPattern? fuel true (rest.drop (name.length + 1))
      return ('[' :: ':' :: name ++ ']' :: cs, rest)
  | fuel + 1, isInside, c :: rest =>
      (readPattern? fuel (isInside && c != ']') rest).map fun (cs, rest) => (c :: cs, rest)

/-- The lexeme at the front of a text. -/
def read? (before : Option Lexeme) (cs : List Char) : Option (Lexeme × List Char) :=
  match cs with
  | [] => none
  | '\n' :: rest => some (newline, rest)
  | '"' :: rest => (readText? (rest.length + 1) rest).map fun (t, rest) => (text t, rest)
  | c :: rest =>
      if isNameStart c then
        let letters := cs.takeWhile isNameChar
        let behind := cs.drop letters.length
        let spelled := String.ofList letters
        if keywords.contains spelled || builtins.contains spelled then some (word spelled, behind)
        else if behind.head? == some '(' then some (called letters, behind)
        else some (name letters, behind)
      else if Text.isDigit c || c == '.' && rest.head?.any Text.isDigit then
        let (x, behind) := Front.decimal cs
        some (number x, behind)
      else if c == '/' && !(before.any endsOperand) then
        (readPattern? (rest.length + 1) false rest).map fun (p, rest) => (pattern p, rest)
      else (signs.find? (·.toList.isPrefixOf cs)).map fun s => (sign s, cs.drop s.length)

/-- The lexemes of a program. Blanks, comments and continued lines are left out. -/
def all? : Nat → (before : Option Lexeme) → List Char → Option (List Lexeme)
  | 0, _, _ => none
  | _, _, [] => some []
  | fuel + 1, before, c :: rest =>
      if isBlank c || c == '\r' then all? fuel before rest
      else if c == '#' then all? fuel before (rest.dropWhile (· != '\n'))
      else
        match c, rest with
        | '\\', '\n' :: rest => all? fuel before rest
        | _, _ => do
            let (l, rest) ← read? before (c :: rest)
            return l :: (← all? fuel (some l) rest)

/-- The lexemes of a program, if each of its characters belongs to one. -/
def ofChars? (cs : List Char) : Option (List Lexeme) := all? (cs.length + 1) none cs

end Lexeme

end PlanOrbits.Shell.Records
