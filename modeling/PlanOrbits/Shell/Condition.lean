import PlanOrbits.Shell.Entry
import PlanOrbits.Shell.Token

/-!
# Conditions

The expressions of the command that tests: comparisons of texts and integers,
questions about files, and what is made of them with `!`, `-a`, `-o` and
parentheses. Up to four arguments are read by their number, so that a comparison of
two texts stays one whatever the texts are.
-/

namespace PlanOrbits.Shell

/-- A condition. -/
inductive Condition where
  | constant (b : Bool)
  /-- A text that is not empty. -/
  | text (cs : List Char)
  | unary (operator : String) (operand : List Char)
  | binary (operator : String) (first second : List Char)
  | negation (c : Condition)
  | conjunction (a b : Condition)
  | disjunction (a b : Condition)
  deriving DecidableEq, Repr

namespace Condition

/-! ## Reading -/

/-- The operators of one operand. -/
def unaryOperators : List String :=
  ["-r", "-w", "-x", "-e", "-f", "-d", "-c", "-b", "-p", "-u", "-g", "-k", "-s", "-t", "-z", "-n",
    "-h", "-O", "-G", "-L", "-S"]

/-- The operators of two operands. -/
def binaryOperators : List String :=
  ["=", "!=", "<", ">", "-eq", "-ne", "-ge", "-gt", "-le", "-lt", "-nt", "-ot", "-ef"]

/-- Is an argument an operator of two operands? -/
def isBinary (arg : List Char) : Bool := binaryOperators.contains (String.ofList arg)

/-- Is the first argument an operator of one operand? Where two arguments follow, and
the first of them compares, it is an operand itself; it is one at the end, too. -/
def isUnary : List (List Char) → Bool
  | [] | [_] => false
  | [operator, _] => unaryOperators.contains (String.ofList operator)
  | operator :: next :: _ => unaryOperators.contains (String.ofList operator) && !isBinary next

/-- The message about an argument. -/
def fault (arg : List Char) (message : String) : String := String.ofList arg ++ ": " ++ message

/-- A condition at the front of arguments, and what is behind it; or what is wrong. -/
abbrev Reading := Except String (Condition × List (List Char))

mutual

/-- Conditions with `-o` between them. -/
def readDisjunction : Nat → List (List Char) → Reading
  | 0, _ => .error "too deep"
  | fuel + 1, args => do
      let (a, rest) ← readConjunction fuel args
      match rest with
      | ['-', 'o'] :: rest =>
          let (b, rest) ← readDisjunction fuel rest
          return (.disjunction a b, rest)
      | rest => return (a, rest)

/-- Conditions with `-a` between them. -/
def readConjunction : Nat → List (List Char) → Reading
  | 0, _ => .error "too deep"
  | fuel + 1, args => do
      let (a, rest) ← readNegation fuel args
      match rest with
      | ['-', 'a'] :: rest =>
          let (b, rest) ← readConjunction fuel rest
          return (.conjunction a b, rest)
      | rest => return (a, rest)

/-- A condition, perhaps negated. -/
def readNegation : Nat → List (List Char) → Reading
  | 0, _ => .error "too deep"
  | fuel + 1, args =>
      match args with
      | ['!'] :: rest =>
          if rest.isEmpty then .ok (.constant true, [])
          else (readNegation fuel rest).map fun (c, rest) => (.negation c, rest)
      | args => readPrimary fuel args

/-- A condition without operators around it. -/
def readPrimary : Nat → List (List Char) → Reading
  | 0, _ => .error "too deep"
  | fuel + 1, args =>
      match args with
      | [] => .ok (.constant false, [])
      | first :: rest =>
          if first == ['('] && !rest.isEmpty then
            if rest.head? == some [')'] then .ok (.constant false, rest.tail)
            else do
              let (c, rest) ← readDisjunction fuel rest
              match rest with
              | [')'] :: rest => return (c, rest)
              | _ => throw "closing paren expected"
          else if isUnary args then
            match rest with
            | operand :: rest => .ok (.unary (String.ofList first) operand, rest)
            | [] => .error (fault first "argument expected")
          else
            match rest with
            | operator :: rest =>
                if isBinary operator then
                  match rest with
                  | second :: rest => .ok (.binary (String.ofList operator) first second, rest)
                  | [] => .error (fault operator "argument expected")
                else .ok (.text first, operator :: rest)
            | [] => .ok (.text first, [])

end

/-- A condition that takes all arguments. -/
def readAll (args : List (List Char)) : Except String Condition := do
  let (c, rest) ← readDisjunction (4 * args.length + 4) args
  if rest.isEmpty then return c
  let last := args.getD (args.length - rest.length - 1) []
  throw (fault last "unexpected operator")

/-- The condition that arguments spell. -/
def ofArgs : List (List Char) → Except String Condition
  | [] => .ok (.constant false)
  | [a, operator, b] =>
      if isBinary operator then .ok (.binary (String.ofList operator) a b)
      else if a == ['('] && b == [')'] then readAll [operator]
      else if a == ['!'] then (ofArgs [operator, b]).map .negation
      else readAll [a, operator, b]
  | [a, b, c, d] =>
      if a == ['('] && d == [')'] then readAll [b, c]
      else if a == ['!'] then (ofArgs [b, c, d]).map .negation
      else readAll [a, b, c, d]
  | args => readAll args

/-! ## Values -/

/-- The integer that an operand denotes, with blanks around it. -/
def integer (cs : List Char) : Except String Int :=
  let isGap := fun (c : Char) => isBlank c || c == '\n'
  let trimmed := cs.dropWhile isGap
  let (isNegative, rest) :=
    match trimmed with
    | '-' :: rest => (true, rest)
    | '+' :: rest => (false, rest)
    | rest => (false, rest)
  let digits := rest.takeWhile Text.isDigit
  match Text.digits? digits with
  | some ds =>
      if (rest.drop digits.length).all isGap then
        .ok (if isNegative then -(Text.number ds : Int) else Text.number ds)
      else .error ("Illegal number: " ++ String.ofList cs)
  | none => .error ("Illegal number: " ++ String.ofList cs)

/-- The result of a comparison. -/
def compare (operator : String) (a b : List Char) : Except String Bool := do
  match operator with
  | "=" => return a == b
  | "!=" => return a != b
  | "<" => return a < b
  | ">" => return b < a
  | _ =>
      let x ← integer a
      let y ← integer b
      match operator with
      | "-eq" => return x == y
      | "-ne" => return x != y
      | "-lt" => return x < y
      | "-le" => return x ≤ y
      | "-gt" => return y < x
      | _ => return y ≤ x

variable {m : Type → Type} [Monad m] [Storage m]

/-- The answer to a question about a file. -/
def ask (operator : String) (path : List Char) : Action m Bool := do
  let isLink := operator == "-L" || operator == "-h"
  let entry? ← if path.isEmpty then pure none else Action.entry? (!isLink) path
  let has := fun (bits : Nat) => entry?.any fun e => Rights.hasAny bits e.rights
  let isOf := fun (letter : Char) => entry?.any fun e => e.letter == letter
  match operator with
  | "-e" | "-r" | "-w" | "-O" | "-G" => return entry?.isSome
  | "-f" => return isOf '-'
  | "-d" => return isOf 'd'
  | "-c" => return isOf 'c'
  | "-p" => return isOf 'p'
  | "-L" | "-h" => return isOf 'l'
  | "-x" => return entry?.any (·.isExecutable)
  | "-s" => return entry?.any fun e => e.size != 0
  | "-u" => return has 0o4000
  | "-g" => return has 0o2000
  | "-k" => return has 0o1000
  | _ => return false

/-- The answer to a question about two files. -/
def askBoth (operator : String) (a b : List Char) : Action m Bool := do
  match ← Action.entry? true a, ← Action.entry? true b with
  | some x, some y =>
      match operator with
      | "-nt" => return y.time < x.time
      | "-ot" => return x.time < y.time
      | _ => return (← Action.filePlace? a) == (← Action.filePlace? b)
  | _, _ => return false

/-- Does a condition hold? Or else what is wrong with it. -/
def holds : Condition → Action m (Except String Bool)
  | constant b => return .ok b
  | text cs => return .ok !cs.isEmpty
  | unary operator operand => do
      if operator == "-n" then return .ok !operand.isEmpty
      else if operator == "-z" then return .ok operand.isEmpty
      else if operator == "-t" then return (integer operand).map fun _ => false
      else return .ok (← ask operator operand)
  | binary operator a b =>
      if ["-nt", "-ot", "-ef"].contains operator then return .ok (← askBoth operator a b)
      else return compare operator a b
  | negation c => return (← c.holds).map (!·)
  | conjunction a b => do
      let x ← a.holds
      let y ← b.holds
      return do return (← x) && (← y)
  | disjunction a b => do
      let x ← a.holds
      let y ← b.holds
      return do return (← x) || (← y)

end Condition

namespace Action

variable {m : Type → Type} [Monad m] [Storage m]

/-- Run a test that was called by the given name. -/
def test (name : String) (args : List (List Char)) : Action m Unit := do
  let answer ←
    match Condition.ofArgs args with
    | .ok c => c.holds
    | .error message => pure (.error message)
  match answer with
  | .ok b => succeed b
  | .error message =>
      complain (name ++ ": " ++ message)
      finish 2

/-- Run a test whose arguments end with a closing bracket. -/
def bracketTest (args : List (List Char)) : Action m Unit := do
  if args.getLast? == some [']'] then test "[" args.dropLast
  else
    complain "[: missing ]"
    finish 2

end Action

end PlanOrbits.Shell
