import PlanOrbits.Shell.Condition
import PlanOrbits.Shell.Pattern

/-!
# Calculations on arguments

The expressions of the program that calculates: each argument is an operand or an
operator. A value is a text; the arithmetic operators ask for integers, and a
comparison compares integers if both sides are.
-/

namespace PlanOrbits.Shell.Calculation

/-- The integer that a value spells. -/
def integer? (cs : List Char) : Option Int :=
  match cs with
  | '-' :: digits => (Text.digits? digits).map fun ds => -(Text.number ds : Int)
  | digits => (Text.digits? digits).map fun ds => (Text.number ds : Int)

/-- Does a value count as nothing? -/
def isNull (cs : List Char) : Bool := cs.isEmpty || integer? cs == some 0

/-- The text of an integer. -/
def ofInt (n : Int) : List Char := (toString n).toList

/-- The value of what holds, and of what does not. -/
def ofBool (b : Bool) : List Char := if b then ['1'] else ['0']

/-- The part of a text that matches from its beginning on: its first group, or else
its length. -/
def matchFront (text pattern : List Char) : List Char :=
  match Pattern.ofChars? .basic pattern with
  | none => []
  | some p =>
      let hasGroup := pattern.length ≠ 0 && ((List.range pattern.length).any fun n =>
        ['\\', '('].isPrefixOf (pattern.drop n))
      match (p.resolved text).occurrenceHere? none text with
      | some o => if hasGroup then (o.groups.lookup 1).getD [] else Text.decimal o.text.length
      | none => if hasGroup then [] else ['0']

/-- The value of an operator of two operands. -/
def result? (operator : String) (a b : List Char) : Option (List Char) :=
  let compare := fun (p : Ordering → Bool) =>
    match integer? a, integer? b with
    | some x, some y => some (ofBool (p (Ord.compare x y)))
    | _, _ => some (ofBool (p (Ord.compare a b)))
  let calculate := fun (f : Int → Int → Option Int) => do
    let n ← f (← integer? a) (← integer? b)
    return ofInt n
  match operator with
  | "|" => some (if !isNull a then a else if !isNull b then b else ['0'])
  | "&" => some (if isNull a || isNull b then ['0'] else a)
  | "=" | "==" => compare (· == .eq)
  | "!=" => compare (· != .eq)
  | "<" => compare (· == .lt)
  | "<=" => compare (· != .gt)
  | ">" => compare (· == .gt)
  | ">=" => compare (· != .lt)
  | "+" => calculate fun x y => some (x + y)
  | "-" => calculate fun x y => some (x - y)
  | "*" => calculate fun x y => some (x * y)
  | "/" => calculate fun x y => if y = 0 then none else some (x.tdiv y)
  | "%" => calculate fun x y => if y = 0 then none else some (x.tmod y)
  | ":" => some (matchFront a b)
  | _ => none

/-- The operators by the level at which they bind, from the least. -/
def levels : List (List String) :=
  [["|"], ["&"], ["=", "==", "!=", "<", "<=", ">", ">="], ["+", "-"], ["*", "/", "%"], [":"]]

mutual

/-- A value with operators of the given levels, and the arguments behind it. -/
def read? : Nat → List (List String) → List (List Char) → Option (List Char × List (List Char))
  | 0, _, _ => none
  | fuel + 1, [], args => readOperand? fuel args
  | fuel + 1, here :: tighter, args => do
      let (a, rest) ← read? fuel tighter args
      readFrom? fuel here tighter a rest

/-- The rest of a value behind its first operand. -/
def readFrom? : Nat → List String → List (List String) → List Char → List (List Char) →
    Option (List Char × List (List Char))
  | 0, _, _, _, _ => none
  | fuel + 1, here, tighter, a, args =>
      match args with
      | operator :: rest =>
          if here.contains (String.ofList operator) then do
            let (b, rest) ← read? fuel tighter rest
            readFrom? fuel here tighter (← result? (String.ofList operator) a b) rest
          else some (a, args)
      | [] => some (a, [])

/-- An operand: a value, one in parentheses, or a function of values. -/
def readOperand? : Nat → List (List Char) → Option (List Char × List (List Char))
  | 0, _ => none
  | fuel + 1, args =>
      match args with
      | [] => none
      | first :: rest =>
          match String.ofList first, rest with
          | "(", rest => do
              let (a, rest) ← read? fuel levels rest
              if rest.head? == some [')'] then return (a, rest.tail) else none
          | "+", a :: rest => some (a, rest)
          | "length", _ :: _ => do
              let (a, rest) ← readOperand? fuel rest
              return (Text.decimal a.length, rest)
          | "match", _ :: _ => do
              let (a, rest) ← readOperand? fuel rest
              let (p, rest) ← readOperand? fuel rest
              return (matchFront a p, rest)
          | "index", _ :: _ => do
              let (a, rest) ← readOperand? fuel rest
              let (set, rest) ← readOperand? fuel rest
              return (Text.decimal ((a.findIdx? set.contains).elim 0 (· + 1)), rest)
          | "substr", _ :: _ => do
              let (a, rest) ← readOperand? fuel rest
              let (start, rest) ← readOperand? fuel rest
              let (count, rest) ← readOperand? fuel rest
              let part :=
                match integer? start, integer? count with
                | some s, some n =>
                    if s ≤ 0 ∨ n ≤ 0 then [] else (a.drop (s.toNat - 1)).take n.toNat
                | _, _ => []
              return (part, rest)
          | _, rest => some (first, rest)

end

/-- The value that arguments spell. -/
def ofArgs? (args : List (List Char)) : Option (List Char) := do
  match ← read? (10 * args.length + 10) levels args with
  | (a, []) => return a
  | _ => none

end PlanOrbits.Shell.Calculation
