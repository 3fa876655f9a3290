import PlanOrbits.Shell.Token

/-!
# Arithmetic

Integer expressions with the usual operators. The integers are words of 64 bits
with a sign, and a comparison has the value one or zero.

An expression is read into a tree first, because not all of it is evaluated: the
second operand of `&&` and `||` only where the first leaves the result open, and
one of the two values of a choice.
-/

namespace PlanOrbits.Shell.Arithmetic

/-- An expression. -/
inductive Expr where
  | number (n : Int)
  | name (cs : List Char)
  | unary (operator : Char) (a : Expr)
  | binary (operator : String) (a b : Expr)
  | conjunction (a b : Expr)
  | disjunction (a b : Expr)
  | choice (test yes no : Expr)
  /-- Gives a variable a value, which is combined with its old one if there is an
  operator. -/
  | assign (name : List Char) (operator : String) (value : Expr)
  deriving Repr

/-! ## Faults -/

/-- What is wrong with an expression. -/
inductive Fault where
  /-- There is no operand where one has to be. -/
  | missingOperand
  | missingParenthesis
  | missingColon
  /-- Something is left behind the expression. -/
  | notAtEnd
  | divisionByZero
  /-- The value of a variable is no integer. -/
  | noInteger (value : List Char)
  deriving DecidableEq, Repr

/-- What is said about a fault in an expression. -/
def Fault.message (expression : List Char) (f : Fault) : String :=
  let within := fun (text : String) =>
    "arithmetic expression: " ++ text ++ ": \"" ++ String.ofList expression ++ "\""
  match f with
  | missingOperand => within "expecting primary"
  | missingParenthesis => within "expecting ')'"
  | missingColon => within "expecting ':'"
  | notAtEnd => within "expecting EOF"
  | divisionByZero => within "division by zero"
  | noInteger value => "Illegal number: " ++ String.ofList value

/-! ## Numbers -/

/-- An integer as a word of 64 bits with a sign. Small integers are such words. -/
def wrap (n : Int) : Int := if n.natAbs < 0x40000000 then n else n.bmod Text.wordLimit

/-- An integer as the nearest word of 64 bits with a sign. -/
def clamp (n : Int) : Int :=
  max (-(Text.wordLimit / 2 : Nat)) (min n ((Text.wordLimit / 2 : Nat) - 1))

/-- The number at the front of a text, to the base that it shows, and what is
behind it. -/
def readNumber? (cs : List Char) : Option (Nat × List Char) :=
  let toBase := fun (base : Nat) (cs : List Char) =>
    let isDigitHere := fun (c : Char) => (Text.hexDigit? c).any (· < base)
    let digits := (cs.takeWhile isDigitHere).filterMap Text.hexDigit?
    (digits.foldl (base * · + ·) 0, cs.drop digits.length)
  match cs with
  | '0' :: x :: d :: rest =>
      if (x == 'x' || x == 'X') && (Text.hexDigit? d).isSome then some (toBase 16 (d :: rest))
      else some (toBase 8 cs)
  | '0' :: _ => some (toBase 8 cs)
  | c :: _ => if Text.isDigit c then some (toBase 10 cs) else none
  | [] => none

/-- The integer that the value of a variable denotes; an empty value denotes
zero. -/
def integerOf? (cs : List Char) : Option Int :=
  let cs := cs.dropWhile fun c => isBlank c || c == '\n'
  let (isNegative, digits) :=
    match cs with
    | '-' :: rest => (true, rest)
    | '+' :: rest => (false, rest)
    | _ => (false, cs)
  if cs.isEmpty then some 0
  else
    match readNumber? digits with
    | some (n, rest) =>
        if rest.all (fun c => isBlank c || c == '\n') then
          some (clamp (if isNegative then -n else n))
        else none
    | none => none

/-! ## Tokens -/

/-- A part of an expression. -/
inductive Lexeme where
  | number (n : Int)
  | name (cs : List Char)
  | operator (text : String)
  /-- A character that has no place in an expression. -/
  | stray (c : Char)
  deriving DecidableEq, Repr

/-- The operators; a longer one comes before its beginnings. -/
def operators : List String :=
  ["<<=", ">>=", "||", "&&", "==", "!=", "<=", ">=", "<<", ">>", "+=", "-=", "*=", "/=", "%=",
    "&=", "^=", "|=", "=", "?", ":", "|", "^", "&", "<", ">", "+", "-", "*", "/", "%", "!", "~",
    "(", ")"]

/-- The operators with their characters. -/
def spelledOperators : List (List Char × String) := operators.map fun o => (o.toList, o)

/-- The lexemes of a text. -/
def lexemes : Nat → List Char → List Lexeme
  | 0, _ => []
  | _, [] => []
  | fuel + 1, c :: cs =>
      if isBlank c || c == '\n' then lexemes fuel cs
      else if isNameStart c then
        let name := (c :: cs).takeWhile isNameChar
        .name name :: lexemes fuel ((c :: cs).drop name.length)
      else
        match readNumber? (c :: cs) with
        | some (n, rest) => .number (clamp n) :: lexemes fuel rest
        | none =>
            match spelledOperators.find? (·.1.isPrefixOf (c :: cs)) with
            | some (spelling, o) =>
                .operator o :: lexemes fuel ((c :: cs).drop spelling.length)
            | none => .stray c :: lexemes fuel cs

/-! ## Trees -/

/-- The operators of two operands by the level at which they bind, from the least;
within a level they are applied from the left. -/
def levels : List (List String) :=
  [["||"], ["&&"], ["|"], ["^"], ["&"], ["==", "!="], ["<=", ">=", "<", ">"], ["<<", ">>"],
    ["+", "-"], ["*", "/", "%"]]

/-- The operator that an assignment combines with, if the text is one. -/
def assignment? (operator : String) : Option String :=
  if operator == "=" then some ""
  else if ["+=", "-=", "*=", "/=", "%=", "<<=", ">>=", "&=", "^=", "|="].contains operator then
    some (String.ofList operator.toList.dropLast)
  else none

/-- Two operands under an operator. -/
def combine (operator : String) (a b : Expr) : Expr :=
  if operator == "||" then .disjunction a b
  else if operator == "&&" then .conjunction a b
  else .binary operator a b

mutual

/-- An expression. -/
def readExpr : Nat → List Lexeme → Except Fault (Expr × List Lexeme)
  | 0, _ => .error .missingOperand
  | fuel + 1, ls =>
      match ls with
      | .name name :: .operator o :: rest =>
          match assignment? o with
          | some operator => do
              let (value, rest) ← readExpr fuel rest
              return (.assign name operator value, rest)
          | none => readTernary fuel ls
      | _ => readTernary fuel ls

/-- A choice, or an expression that binds tighter. -/
def readTernary : Nat → List Lexeme → Except Fault (Expr × List Lexeme)
  | 0, _ => .error .missingOperand
  | fuel + 1, ls => do
      let (test, rest) ← readLevel fuel levels ls
      match rest with
      | .operator "?" :: rest =>
          let (yes, rest) ← readExpr fuel rest
          match rest with
          | .operator ":" :: rest =>
              let (no, rest) ← readTernary fuel rest
              return (.choice test yes no, rest)
          | _ => .error .missingColon
      | rest => return (test, rest)

/-- An operand: a number, a variable, or an expression with a sign or in
parentheses. -/
def readOperand : Nat → List Lexeme → Except Fault (Expr × List Lexeme)
  | 0, _ => .error .missingOperand
  | fuel + 1, ls =>
      match ls with
      | .number n :: rest => .ok (.number n, rest)
      | .name name :: rest => .ok (.name name, rest)
      | .operator "(" :: rest => do
          let (e, rest) ← readExpr fuel rest
          match rest with
          | .operator ")" :: rest => return (e, rest)
          | _ => .error .missingParenthesis
      | .operator o :: rest =>
          match o.toList with
          | [c] =>
              if ['+', '-', '!', '~'].contains c then do
                let (e, rest) ← readOperand fuel rest
                return (.unary c e, rest)
              else .error .missingOperand
          | _ => .error .missingOperand
      | .stray _ :: _ | [] => .error .missingOperand

/-- An expression with operators of the given levels. -/
def readLevel : Nat → List (List String) → List Lexeme → Except Fault (Expr × List Lexeme)
  | 0, _, _ => .error .missingOperand
  | fuel + 1, [], ls => readOperand fuel ls
  | fuel + 1, here :: tighter, ls => do
      let (a, rest) ← readLevel fuel tighter ls
      readLevelFrom fuel here tighter a rest

/-- The rest of an expression behind its first operand. -/
def readLevelFrom :
    Nat → List String → List (List String) → Expr → List Lexeme →
      Except Fault (Expr × List Lexeme)
  | 0, _, _, _, _ => .error .missingOperand
  | fuel + 1, here, tighter, a, ls =>
      match ls with
      | .operator o :: rest =>
          if here.contains o then do
            let (b, rest) ← readLevel fuel tighter rest
            readLevelFrom fuel here tighter (combine o a b) rest
          else .ok (a, ls)
      | _ => .ok (a, ls)

end

/-- The expression that a text spells; nothing at all is zero. -/
def Expr.ofChars (cs : List Char) : Except Fault Expr := do
  let ls := lexemes (cs.length + 1) cs
  if ls.isEmpty then return .number 0
  match ← readExpr (16 * ls.length + 16) ls with
  | (e, []) => return e
  | _ => .error .notAtEnd

/-! ## Values -/

/-- One for what holds, zero for what does not. -/
def truth (b : Bool) : Int := if b then 1 else 0

/-- The word of 64 bits without a sign that has the same bits. -/
def bits (n : Int) : UInt64 := (n.emod Text.wordLimit).toNat.toUInt64

/-- The value of an operator; there is none for a division by zero. -/
def result? (operator : String) (a b : Int) : Option Int :=
  let amount := (b.emod 64).toNat
  let ofBits := fun (w : UInt64) => some (wrap w.toNat)
  match operator with
  | "|" => ofBits (bits a ||| bits b)
  | "^" => ofBits (bits a ^^^ bits b)
  | "&" => ofBits (bits a &&& bits b)
  | "==" => some (truth (a == b))
  | "!=" => some (truth (a != b))
  | "<=" => some (truth (a ≤ b))
  | ">=" => some (truth (b ≤ a))
  | "<" => some (truth (a < b))
  | ">" => some (truth (b < a))
  | "<<" => some (wrap (a * Nat.pow 2 amount))
  | ">>" => some (a.fdiv (Nat.pow 2 amount))
  | "+" => some (wrap (a + b))
  | "-" => some (wrap (a - b))
  | "*" => some (wrap (a * b))
  | "/" => if b = 0 then none else some (wrap (a.tdiv b))
  | "%" => if b = 0 then none else some (a.tmod b)
  | _ => none

/-- The value of a sign in front of an operand. -/
def applySign (operator : Char) (a : Int) : Int :=
  match operator with
  | '-' => wrap (-a)
  | '!' => truth (a == 0)
  | '~' => wrap (-a - 1)
  | _ => a

/-- What an evaluation needs to know and to change. -/
structure Variables (σ : Type) where
  value : σ → List Char → List Char
  assign : List Char → List Char → σ → σ

/-- The text of an integer. -/
def textOf (n : Int) : List Char :=
  if n < 0 then '-' :: Text.decimal n.natAbs else Text.decimal n.natAbs

/-- The integer that a variable holds. -/
def Variables.integer {σ : Type} (v : Variables σ) (s : σ) (name : List Char) :
    Except Fault Int :=
  match integerOf? (v.value s name) with
  | some n => .ok n
  | none => .error (.noInteger (v.value s name))

/-- The value of an operator between two integers. -/
def result (operator : String) (a b : Int) : Except Fault Int :=
  match result? operator a b with
  | some n => .ok n
  | none => .error .divisionByZero

/-- The value of an expression, and the state after its assignments. -/
def Expr.eval {σ : Type} (v : Variables σ) : Expr → σ → Except Fault (Int × σ)
  | .number n, s => .ok (n, s)
  | .name cs, s => (v.integer s cs).map (·, s)
  | .unary operator a, s => (a.eval v s).map fun (x, s) => (applySign operator x, s)
  | .binary operator a b, s => do
      let (x, s) ← a.eval v s
      let (y, s) ← b.eval v s
      return (← result operator x y, s)
  | .conjunction a b, s => do
      let (x, s) ← a.eval v s
      if x == 0 then return (0, s)
      let (y, s) ← b.eval v s
      return (truth (y != 0), s)
  | .disjunction a b, s => do
      let (x, s) ← a.eval v s
      if x != 0 then return (1, s)
      let (y, s) ← b.eval v s
      return (truth (y != 0), s)
  | .choice test yes no, s => do
      let (x, s) ← test.eval v s
      if x != 0 then yes.eval v s else no.eval v s
  | .assign cs operator value, s => do
      let (x, s) ← value.eval v s
      let x ←
        if operator == "" then .ok x else do result operator (← v.integer s cs) x
      return (x, v.assign cs (textOf x) s)

/-- The value of an expression that is given as a text. -/
def evaluate {σ : Type} (v : Variables σ) (s : σ) (expression : List Char) :
    Except Fault (Int × σ) := do
  (← Expr.ofChars expression).eval v s

end PlanOrbits.Shell.Arithmetic
