import PlanOrbits.Shell.Records.Lexeme
import PlanOrbits.Shell.Records.Program

/-!
# Reading record programs

The grammar of record programs. An operator that binds tighter is read by a deeper
reader. The readers run on fuel; each nested call consumes a lexeme or goes one
level deeper.
-/

namespace PlanOrbits.Shell.Records

namespace Reader

/-- Go over a sign. -/
def expect? (s : String) : List Lexeme → Option (List Lexeme)
  | .sign t :: ls => if s == t then some ls else none
  | _ => none

/-- Is the first lexeme a sign? -/
def startsWith (s : String) (ls : List Lexeme) : Bool := (expect? s ls).isSome

/-- Is the first lexeme a word? -/
def startsWithWord (s : String) : List Lexeme → Bool
  | .word t :: _ => s == t
  | _ => false

/-- Go over line breaks. -/
def skipLines : List Lexeme → List Lexeme
  | .newline :: ls => skipLines ls
  | ls => ls

/-- Go over what separates statements. -/
def skipBreaks : List Lexeme → List Lexeme
  | .newline :: ls => skipBreaks ls
  | .sign s :: ls => if s == ";" then skipBreaks ls else .sign s :: ls
  | ls => ls

/-- Can an operand that is joined to another one begin here? -/
def startsOperand : List Lexeme → Bool
  | .number _ :: _ | .text _ :: _ | .pattern _ :: _ | .name _ :: _ | .called _ :: _ => true
  | .sign s :: _ => ["$", "(", "!", "-", "+", "++", "--"].contains s
  | .word s :: _ => Lexeme.builtins.contains s
  | _ => false

/-- Does a statement end here? -/
def isEndOfStatement : List Lexeme → Bool
  | [] | .newline :: _ => true
  | .sign s :: _ => s == ";" || s == "\x7d"
  | _ => false

/-- Can something be assigned to an expression? -/
def isTarget : Expr → Bool
  | .name _ | .field _ | .element .. => true
  | _ => false

/-- The operator of an assignment, which may combine with the old value. -/
def assignment? : List Lexeme → Option (Option Char × List Lexeme)
  | .sign s :: ls =>
      match s with
      | "=" => some (none, ls)
      | "+=" => some (some '+', ls)
      | "-=" => some (some '-', ls)
      | "*=" => some (some '*', ls)
      | "/=" => some (some '/', ls)
      | "%=" => some (some '%', ls)
      | "^=" => some (some '^', ls)
      | _ => none
  | _ => none

/-- The signs by which values are compared; the one that also directs output only
where it is allowed. -/
def comparison? (hasGreater : Bool) : List Lexeme → Option (String × List Lexeme)
  | .sign s :: ls =>
      let isComparison := ["==", "!=", "<", "<=", ">="].contains s || hasGreater && s == ">"
      if isComparison then some (s, ls) else none
  | _ => none

/-- One of some operators. -/
def operator? (operators : List String) : List Lexeme → Option (String × List Lexeme)
  | .sign s :: ls => if operators.contains s then some (s, ls) else none
  | _ => none

mutual

/-- An expression: a choice, or what binds tighter. -/
def readExpr? (g : Bool) : Nat → List Lexeme → Option (Expr × List Lexeme)
  | 0, _ => none
  | fuel + 1, ls => do
      let (test, ls) ← readDisjunction? g fuel ls
      match expect? "?" ls with
      | none => return (test, ls)
      | some ls =>
          let (yes, ls) ← readExpr? g fuel (skipLines ls)
          let (no, ls) ← readExpr? g fuel (skipLines (← expect? ":" (skipLines ls)))
          return (.choice test yes no, ls)

/-- Expressions with `||` between them. -/
def readDisjunction? (g : Bool) : Nat → List Lexeme → Option (Expr × List Lexeme)
  | 0, _ => none
  | fuel + 1, ls => do
      let (a, ls) ← readConjunction? g fuel ls
      match expect? "||" ls with
      | none => return (a, ls)
      | some ls =>
          let (b, ls) ← readDisjunction? g fuel (skipLines ls)
          return (.disjunction a b, ls)

/-- Expressions with `&&` between them. -/
def readConjunction? (g : Bool) : Nat → List Lexeme → Option (Expr × List Lexeme)
  | 0, _ => none
  | fuel + 1, ls => do
      let (a, ls) ← readMembership? g fuel ls
      match expect? "&&" ls with
      | none => return (a, ls)
      | some ls =>
          let (b, ls) ← readConjunction? g fuel (skipLines ls)
          return (.conjunction a b, ls)

/-- A question whether an index is in an array, or what binds tighter. -/
def readMembership? (g : Bool) : Nat → List Lexeme → Option (Expr × List Lexeme)
  | 0, _ => none
  | fuel + 1, ls => do
      let (a, ls) ← readMatch? g fuel ls
      readMembershipFrom? fuel a ls

/-- The rest of such a question. -/
def readMembershipFrom? : Nat → Expr → List Lexeme → Option (Expr × List Lexeme)
  | 0, _, _ => none
  | fuel + 1, a, ls =>
      match ls with
      | .word "in" :: .name array :: ls => readMembershipFrom? fuel (.isIn [a] array) ls
      | ls => some (a, ls)

/-- A question whether a pattern occurs, or what binds tighter. -/
def readMatch? (g : Bool) : Nat → List Lexeme → Option (Expr × List Lexeme)
  | 0, _ => none
  | fuel + 1, ls => do
      let (a, ls) ← readComparison? g fuel ls
      readMatchFrom? g fuel a ls

/-- The rest of such a question. -/
def readMatchFrom? (g : Bool) : Nat → Expr → List Lexeme → Option (Expr × List Lexeme)
  | 0, _, _ => none
  | fuel + 1, a, ls =>
      match operator? ["~", "!~"] ls with
      | none => some (a, ls)
      | some (s, ls) => do
          let (p, ls) ← readComparison? g fuel ls
          let found := Expr.occurs a p
          readMatchFrom? g fuel (if s == "~" then found else .negation found) ls

/-- A comparison, or what binds tighter. -/
def readComparison? (g : Bool) : Nat → List Lexeme → Option (Expr × List Lexeme)
  | 0, _ => none
  | fuel + 1, ls => do
      let (a, ls) ← readJoined? fuel ls
      match comparison? g ls with
      | none => readPiped? fuel a ls
      | some (s, ls) =>
          let (b, ls) ← readJoined? fuel ls
          return (.compared s a b, ls)

/-- The output of a command as a source of records. -/
def readPiped? : Nat → Expr → List Lexeme → Option (Expr × List Lexeme)
  | 0, _, _ => none
  | fuel + 1, a, ls =>
      match ls with
      | .sign "|" :: .word "getline" :: ls => do
          let (target, ls) ← readTarget? fuel ls
          readPiped? fuel (.nextRecord target none (some a)) ls
      | ls => some (a, ls)

/-- Texts one behind the other. -/
def readJoined? : Nat → List Lexeme → Option (Expr × List Lexeme)
  | 0, _ => none
  | fuel + 1, ls => do
      let (a, ls) ← readSum? fuel ls
      readJoinedFrom? fuel a ls

/-- The rest of texts one behind the other. -/
def readJoinedFrom? : Nat → Expr → List Lexeme → Option (Expr × List Lexeme)
  | 0, _, _ => none
  | fuel + 1, a, ls =>
      if startsOperand ls then do
        let (b, ls) ← readSum? fuel ls
        readJoinedFrom? fuel (.joined a b) ls
      else some (a, ls)

/-- A sum, or what binds tighter. -/
def readSum? : Nat → List Lexeme → Option (Expr × List Lexeme)
  | 0, _ => none
  | fuel + 1, ls => do
      let (a, ls) ← readProduct? fuel ls
      readSumFrom? fuel a ls

/-- The rest of a sum. -/
def readSumFrom? : Nat → Expr → List Lexeme → Option (Expr × List Lexeme)
  | 0, _, _ => none
  | fuel + 1, a, ls =>
      match operator? ["+", "-"] ls with
      | none => some (a, ls)
      | some (s, ls) => do
          let (b, ls) ← readProduct? fuel ls
          readSumFrom? fuel (.binary (if s == "+" then '+' else '-') a b) ls

/-- A product, or what binds tighter. -/
def readProduct? : Nat → List Lexeme → Option (Expr × List Lexeme)
  | 0, _ => none
  | fuel + 1, ls => do
      let (a, ls) ← readSigned? fuel ls
      readProductFrom? fuel a ls

/-- The rest of a product. -/
def readProductFrom? : Nat → Expr → List Lexeme → Option (Expr × List Lexeme)
  | 0, _, _ => none
  | fuel + 1, a, ls =>
      match operator? ["*", "/", "%"] ls with
      | none => some (a, ls)
      | some (s, ls) => do
          let (b, ls) ← readSigned? fuel ls
          readProductFrom? fuel (.binary (s.toList.headD '*') a b) ls

/-- An operand with a sign in front, or what binds tighter. -/
def readSigned? : Nat → List Lexeme → Option (Expr × List Lexeme)
  | 0, _ => none
  | fuel + 1, ls =>
      match operator? ["-", "+", "!"] ls with
      | none => readPower? fuel ls
      | some (s, ls) => do
          let (a, ls) ← readSigned? fuel ls
          let negated := if s == "-" then .negative a else .negation a
          return (if s == "+" then .positive a else negated, ls)

/-- A power, or what binds tighter. -/
def readPower? : Nat → List Lexeme → Option (Expr × List Lexeme)
  | 0, _ => none
  | fuel + 1, ls => do
      let (a, ls) ← readStep? fuel ls
      match operator? ["^"] ls with
      | none => return (a, ls)
      | some (_, ls) =>
          let (b, ls) ← readSigned? fuel ls
          return (.binary '^' a b, ls)

/-- An operand that is stepped or assigned to, or a plain one. -/
def readStep? : Nat → List Lexeme → Option (Expr × List Lexeme)
  | 0, _ => none
  | fuel + 1, ls =>
      match operator? ["++", "--"] ls with
      | some (s, ls) => do
          let (a, ls) ← readOperand? fuel ls
          if isTarget a then return (.step a (if s == "++" then 1 else -1) true, ls) else none
      | none => do
          let (a, ls) ← readOperand? fuel ls
          if !isTarget a then return (a, ls)
          match operator? ["++", "--"] ls, assignment? ls with
          | some (s, ls), _ => return (.step a (if s == "++" then 1 else -1) false, ls)
          | none, some (o, ls) =>
              let (value, ls) ← readExpr? true fuel (skipLines ls)
              return (.assign a o value, ls)
          | none, none => return (a, ls)

/-- An operand. -/
def readOperand? : Nat → List Lexeme → Option (Expr × List Lexeme)
  | 0, _ => none
  | fuel + 1, ls =>
      match ls with
      | .number x :: ls => some (.number x, ls)
      | .text cs :: ls => some (.text cs, ls)
      | .pattern cs :: ls => some (.pattern cs, ls)
      | .name cs :: .sign "[" :: ls => do
          let (indices, ls) ← readList? fuel ls
          return (.element cs indices, ← expect? "]" ls)
      | .name cs :: ls => some (.name cs, ls)
      | .called cs :: .sign "(" :: ls => do
          let (args, ls) ← readArgs? fuel ls
          return (.call cs args, ls)
      | .sign "$" :: ls =>
          match operator? ["++", "--"] ls with
          | some (s, ls) => do
              let (a, ls) ← readOperand? fuel ls
              return (.field (.step a (if s == "++" then 1 else -1) true), ls)
          | none =>
              match operator? ["-", "+"] ls with
              | some (s, ls) => do
                  let (a, ls) ← readOperand? fuel ls
                  return (.field (if s == "-" then .negative a else a), ls)
              | none => do
                  let (a, ls) ← readOperand? fuel ls
                  return (.field a, ls)
      | .sign "(" :: ls => do
          let (items, ls) ← readList? fuel ls
          let ls ← expect? ")" (skipLines ls)
          match items, ls with
          | [e], ls => return (.grouped e, ls)
          | items, .word "in" :: .name array :: ls => return (.isIn items array, ls)
          | _, _ => none
      | .word "getline" :: ls => do
          let (target, ls) ← readTarget? fuel ls
          match expect? "<" ls with
          | none => return (.nextRecord target none none, ls)
          | some ls =>
              let (file, ls) ← readOperand? fuel ls
              return (.nextRecord target (some file) none, ls)
      | .word w :: .sign "(" :: ls =>
          if Lexeme.builtins.contains w then do
            let (args, ls) ← readArgs? fuel ls
            return (.builtin w args, ls)
          else none
      | .word "length" :: ls => some (.builtin "length" [], ls)
      | _ => none

/-- What a record is read into, if it is said. -/
def readTarget? : Nat → List Lexeme → Option (Option Expr × List Lexeme)
  | 0, _ => none
  | fuel + 1, ls =>
      match ls with
      | .name _ :: _ => (readOperand? fuel ls).map fun (e, ls) => (some e, ls)
      | .sign s :: _ =>
          if s == "$" then (readOperand? fuel ls).map fun (e, ls) => (some e, ls)
          else some (none, ls)
      | ls => some (none, ls)

/-- Expressions with commas between them; at least one. -/
def readList? : Nat → List Lexeme → Option (List Expr × List Lexeme)
  | 0, _ => none
  | fuel + 1, ls => do
      let (e, ls) ← readExpr? true fuel (skipLines ls)
      match expect? "," ls with
      | none => return ([e], ls)
      | some ls =>
          let (es, ls) ← readList? fuel ls
          return (e :: es, ls)

/-- The arguments of a function up to the closing parenthesis. -/
def readArgs? : Nat → List Lexeme → Option (List Expr × List Lexeme)
  | 0, _ => none
  | fuel + 1, ls =>
      match expect? ")" (skipLines ls) with
      | some ls => some ([], ls)
      | none => do
          let (es, ls) ← readList? fuel ls
          return (es, ← expect? ")" (skipLines ls))

end

/-- Expressions that are printed. A sign that directs the output is no comparison
there. -/
def readPrinted? : Nat → List Lexeme → Option (List Expr × List Lexeme)
  | 0, _ => none
  | fuel + 1, ls => do
      let (e, ls) ← readExpr? false fuel ls
      match expect? "," ls with
      | none => return ([e], ls)
      | some ls =>
          let (es, ls) ← readPrinted? fuel (skipLines ls)
          return (e :: es, ls)

/-- Does what is printed end here? -/
def isEndOfPrinted (ls : List Lexeme) : Bool :=
  isEndOfStatement ls || (operator? [">", ">>", "|"] ls).isSome

/-- What is printed, perhaps in parentheses, and where it goes. -/
def readOutput? (fuel : Nat) (ls : List Lexeme) :
    Option ((List Expr × Option (Direction × Expr)) × List Lexeme) := do
  let inParentheses : Option (List Expr × List Lexeme) := do
    let (es, ls) ← readList? fuel (← expect? "(" ls)
    let ls ← expect? ")" (skipLines ls)
    if isEndOfPrinted ls then return (es, ls) else none
  let (es, ls) ←
    if isEndOfPrinted ls then some ([], ls)
    else inParentheses.or (readPrinted? fuel ls)
  match operator? [">", ">>", "|"] ls with
  | none => return ((es, none), ls)
  | some (s, ls) =>
      let (target, ls) ← readExpr? false fuel ls
      let direction := if s == "|" then Direction.command else .file (s == ">>")
      return ((es, some (direction, target)), ls)

/-- A statement that ends where a line does. -/
def readSimple? (fuel : Nat) (ls : List Lexeme) : Option (Statement × List Lexeme) :=
  let optional : List Lexeme → Option (Option Expr × List Lexeme) := fun ls =>
    if isEndOfStatement ls then some (none, ls)
    else (readExpr? true fuel ls).map fun (e, ls) => (some e, ls)
  match ls with
  | .word "print" :: ls =>
      (readOutput? fuel ls).map fun ((es, target), ls) => (.print es target, ls)
  | .word "printf" :: ls =>
      (readOutput? fuel ls).map fun ((es, target), ls) => (.formatted es target, ls)
  | .word "next" :: ls => some (.nextRecord, ls)
  | .word "break" :: ls => some (.leave, ls)
  | .word "continue" :: ls => some (.again, ls)
  | .word "exit" :: ls => (optional ls).map fun (e, ls) => (.exit e, ls)
  | .word "return" :: ls => (optional ls).map fun (e, ls) => (.back e, ls)
  | .word "delete" :: .name array :: .sign "[" :: ls => do
      let (indices, ls) ← readList? fuel ls
      return (.delete array indices, ← expect? "]" ls)
  | .word "delete" :: .name array :: ls => some (.delete array [], ls)
  | ls => (readExpr? true fuel ls).map fun (e, ls) => (.expression e, ls)

/-- Go over the end of a statement. -/
def endStatement? : List Lexeme → Option (List Lexeme)
  | [] => some []
  | .newline :: ls => some ls
  | .sign s :: ls =>
      if s == ";" then some ls else if s == "\x7d" then some (.sign s :: ls) else none
  | _ => none

mutual

/-- A statement with its end. -/
def readStatement? : Nat → List Lexeme → Option (Statement × List Lexeme)
  | 0, _ => none
  | fuel + 1, ls =>
      match ls with
      | .sign ";" :: ls => some (.block [], ls)
      | .sign "\x7b" :: ls =>
          (readStatements? fuel ls).map fun (body, ls) => (.block body, ls)
      | .word "if" :: ls => do
          let (test, ls) ← readExpr? true fuel (← expect? "(" ls)
          let (yes, ls) ← readStatement? fuel (skipLines (← expect? ")" (skipLines ls)))
          let behind := skipBreaks ls
          if startsWithWord "else" behind then
            let (no, ls) ← readStatement? fuel (skipLines behind.tail)
            return (.conditional test [yes] [no], ls)
          else return (.conditional test [yes] [], ls)
      | .word "while" :: ls => do
          let (test, ls) ← readExpr? true fuel (← expect? "(" ls)
          let ls ← expect? ")" (skipLines ls)
          let (body, ls) ← readStatement? fuel (skipLines ls)
          return (.loop test [body], ls)
      | .word "do" :: ls => do
          let (body, ls) ← readStatement? fuel (skipLines ls)
          let ls := skipBreaks ls
          if !startsWithWord "while" ls then none
          let (test, ls) ← readExpr? true fuel (← expect? "(" ls.tail)
          return (.loopBehind [body] test, ← endStatement? (← expect? ")" (skipLines ls)))
      | .word "for" :: .sign "(" :: .name name :: .word "in" :: .name array :: .sign ")" :: ls => do
          let (body, ls) ← readStatement? fuel (skipLines ls)
          return (.each name array [body], ls)
      | .word "for" :: .sign "(" :: ls => do
          let (start, ls) ← readClause? fuel ls
          let ls := skipLines (← expect? ";" ls)
          let (test, ls) ←
            if startsWith ";" ls then some (none, ls)
            else (readExpr? true fuel ls).map fun (e, ls) => (some e, ls)
          let (step, ls) ← readClause? fuel (skipLines (← expect? ";" ls))
          let (body, ls) ← readStatement? fuel (skipLines (← expect? ")" (skipLines ls)))
          return (.count start test step [body], ls)
      | ls => do
          let (s, ls) ← readSimple? fuel ls
          return (s, ← endStatement? ls)

/-- A statement in the head of a loop, which may be missing. -/
def readClause? : Nat → List Lexeme → Option (List Statement × List Lexeme)
  | 0, _ => none
  | fuel + 1, ls =>
      if startsWith ";" ls || startsWith ")" ls then some ([], ls)
      else (readSimple? fuel ls).map fun (s, ls) => ([s], ls)

/-- Statements up to the brace that closes them. -/
def readStatements? : Nat → List Lexeme → Option (List Statement × List Lexeme)
  | 0, _ => none
  | fuel + 1, ls =>
      let ls := skipBreaks ls
      match expect? "\x7d" ls with
      | some ls => some ([], ls)
      | none => do
          let (s, ls) ← readStatement? fuel ls
          let (rest, ls) ← readStatements? fuel ls
          return (s :: rest, ls)

end

/-- The names of parameters up to the closing parenthesis. -/
def readParameters? : List Lexeme → Option (List (List Char) × List Lexeme)
  | .sign ")" :: ls => some ([], ls)
  | .name cs :: .sign "," :: ls =>
      (readParameters? ls).map fun (names, ls) => (cs :: names, ls)
  | .name cs :: .sign ")" :: ls => some ([cs], ls)
  | _ => none

/-- The body of a rule, if there is one. -/
def readBody? (fuel : Nat) (ls : List Lexeme) : Option (Option (List Statement) × List Lexeme) :=
  match expect? "\x7b" ls with
  | none => some (none, ls)
  | some ls => (readStatements? fuel ls).map fun (body, ls) => (some body, ls)

/-- The rules and functions of a program. -/
def readProgram? : Nat → List Lexeme → Option Program
  | 0, _ => none
  | fuel + 1, ls => do
      let add := fun (guard : Guard) (ls : List Lexeme) => do
        let (body, ls) ← readBody? fuel ls
        let rest ← readProgram? fuel ls
        some { rest with rules := { guard, body } :: rest.rules }
      match skipBreaks ls with
      | [] => return { rules := [], functions := [] }
      | .word "BEGIN" :: ls => add .beforeAll ls
      | .word "END" :: ls => add .afterAll ls
      | .word w :: l :: .sign "(" :: ls =>
          if w == "function" || w == "func" then
            let name ←
              match l with
              | .name cs => some cs
              | .called cs => some cs
              | _ => none
            let (parameters, ls) ← readParameters? ls
            let (body, ls) ← readBody? fuel (skipLines ls)
            let rest ← readProgram? fuel ls
            return { rest with functions := { name, parameters, body := ← body } :: rest.functions }
          else
            let (e, ls) ← readExpr? true fuel (.word w :: l :: .sign "(" :: ls)
            addFrom fuel add e ls
      | ls =>
          if startsWith "\x7b" ls then add .always ls
          else
            let (e, ls) ← readExpr? true fuel ls
            addFrom fuel add e ls
where
  /-- A rule whose condition begins with an expression. -/
  addFrom (fuel : Nat) (add : Guard → List Lexeme → Option Program) (e : Expr) (ls : List Lexeme) :
      Option Program :=
    match expect? "," ls with
    | none => add (.holds e) ls
    | some ls => do
        let (last, ls) ← readExpr? true fuel (skipLines ls)
        add (.range e last) ls

end Reader

/-- The program that a text spells. -/
def Program.ofChars? (cs : List Char) : Option Program := do
  let ls ← Lexeme.ofChars? cs
  Reader.readProgram? (24 * ls.length + 64) ls

end PlanOrbits.Shell.Records
