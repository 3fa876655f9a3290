/-!
# Record programs

The language of programs that go through records, which are the lines of a text
unless something else is said. A program is a list of rules; each has a condition
for the records on which its body is run. Bodies are lists of statements, and
statements are about expressions.
-/

namespace PlanOrbits.Shell.Records

/-- An expression. -/
inductive Expr where
  | number (x : Float)
  | text (cs : List Char)
  /-- Does a pattern occur in the record? -/
  | pattern (cs : List Char)
  | name (cs : List Char)
  | field (e : Expr)
  | element (array : List Char) (indices : List Expr)
  /-- An expression in parentheses, to which nothing can be assigned. -/
  | grouped (e : Expr)
  | assign (target : Expr) (operator : Option Char) (value : Expr)
  /-- Adds a number; the value is the one before or behind. -/
  | step (target : Expr) (amount : Float) (isBefore : Bool)
  | negative (e : Expr)
  | positive (e : Expr)
  | negation (e : Expr)
  | binary (operator : Char) (a b : Expr)
  | joined (a b : Expr)
  | compared (operator : String) (a b : Expr)
  /-- Does a pattern occur in a text? -/
  | occurs (e pattern : Expr)
  | isIn (indices : List Expr) (array : List Char)
  | conjunction (a b : Expr)
  | disjunction (a b : Expr)
  | choice (test yes no : Expr)
  | call (name : List Char) (args : List Expr)
  | builtin (name : String) (args : List Expr)
  /-- Reads a record from the input, from a file, or from the output of a command. -/
  | nextRecord (target : Option Expr) (file command : Option Expr)
  deriving Inhabited

/-- Where output goes. -/
inductive Direction where
  | file (isAppended : Bool)
  | command
  deriving DecidableEq, Repr

/-- A statement. -/
inductive Statement where
  | expression (e : Expr)
  | print (args : List Expr) (target : Option (Direction × Expr))
  | formatted (args : List Expr) (target : Option (Direction × Expr))
  | conditional (test : Expr) (yes no : List Statement)
  | loop (test : Expr) (body : List Statement)
  /-- The body is run before the test. -/
  | loopBehind (body : List Statement) (test : Expr)
  | count (start : List Statement) (test : Option Expr) (step body : List Statement)
  | each (name array : List Char) (body : List Statement)
  | block (body : List Statement)
  | nextRecord
  | exit (status : Option Expr)
  | leave
  | again
  | back (value : Option Expr)
  | delete (array : List Char) (indices : List Expr)
  deriving Inhabited

/-- The condition of a rule. -/
inductive Guard where
  | beforeAll
  | afterAll
  | always
  | holds (e : Expr)
  /-- From a record where the first holds to one where the second does. -/
  | range (first last : Expr)

/-- A rule; without a body it prints the record. -/
structure Rule where
  guard : Guard
  body : Option (List Statement)

/-- A function. -/
structure Function where
  name : List Char
  parameters : List (List Char)
  body : List Statement

/-- A program. -/
structure Program where
  rules : List Rule
  functions : List Function

end PlanOrbits.Shell.Records
